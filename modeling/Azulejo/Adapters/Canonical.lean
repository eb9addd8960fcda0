import Azulejo.Adapters.Traversal

/-!
# The tree an entity is saved as

`canonical` is a purely structural tree: at every entity the node its own `Save` fills,
then one child for each member of the adapter's type. `saveWithParentKey_eq` is the
simulation: the recursion that changes the one shared hierarchy through dotted paths from
its root puts exactly this tree at the entity's path.
-/

namespace Azulejo

open AssocList Stateful Entity

variable {T D C W : Type}

/-! ## The structural tree and the calls of `Save` -/

section Canonical

variable (A : Adapter T D C) (directory : Str → C)

/-- What `Save` makes of the empty node. -/
def savedNode (type : T) (data : D) (c : C) : Ptree :=
  match (A.save type data c).run LTree.empty with
  | .ok _ node => node
  | .error _ node => node

mutual
/-- The tree of an entity below the path `parentKey`. -/
def canonical : Entity T D → Str → Ptree
  | .mk key type data membersMap _, parentKey =>
    let searchPath := searchPathOf parentKey key
    (savedNode A type data (directory searchPath)).addChildren
      (canonicalMembers membersMap searchPath)
def canonicalMembers : List (Key × Option (Entity T D)) → Str → List (Key × Ptree)
  | [], _ => []
  | (_, none) :: members, searchPath => canonicalMembers members searchPath
  | (_, some member) :: members, searchPath =>
    if A.implements member.type then
      (member.key, canonical member searchPath) :: canonicalMembers members searchPath
    else canonicalMembers members searchPath
end

mutual
/-- The calls of `Save` on an entity and its members. -/
def saveCalls : Entity T D → Str → LTree Key (SaveCall C)
  | .mk key _ _ membersMap _, parentKey =>
    let searchPath := searchPathOf parentKey key
    .node ⟨searchPath, directory searchPath⟩ (saveMemberCalls membersMap searchPath)
def saveMemberCalls : List (Key × Option (Entity T D)) → Str → List (Key × LTree Key (SaveCall C))
  | [], _ => []
  | (_, none) :: members, searchPath => saveMemberCalls members searchPath
  | (key, some member) :: members, searchPath =>
    if A.implements member.type then
      (key, saveCalls member searchPath) :: saveMemberCalls members searchPath
    else saveMemberCalls members searchPath
end

end Canonical

theorem canonical_eq {A : Adapter T D C} {directory : Str → C} {key : Key} {type : T} {data : D}
    {membersMap : List (Key × Option (Entity T D))} {ctors : List (Key × T)} {parentKey : Str}
    {node : Ptree}
    (h : (A.save type data (directory (searchPathOf parentKey key))).run LTree.empty =
      .ok () node) :
    canonical A directory (.mk key type data membersMap ctors) parentKey =
      node.addChildren
        (canonicalMembers A directory membersMap (searchPathOf parentKey key)) := by
  simp only [canonical, savedNode, h]

/-- The members that are saved are those `GetAggregatedMemberKeys` lists, in its order. -/
theorem labels_saveCalls (A : Adapter T D C) (directory : Str → C) (e : Entity T D)
    (parentKey : Str) :
    (saveCalls A directory e parentKey).labels = e.getAggregatedMemberKeys A.implements := by
  obtain ⟨key, type, data, membersMap, ctors⟩ := e
  show keys (saveMemberCalls A directory membersMap _) = _
  unfold getAggregatedMemberKeys
  rw [membersMap_mk]
  induction membersMap with
  | nil => simp [saveMemberCalls]
  | cons p members ih =>
    obtain ⟨k, pointer⟩ := p
    cases pointer with
    | none => simpa only [saveMemberCalls, List.filterMap_cons, Option.bind_none] using ih
    | some m =>
      by_cases himp : A.implements m.type = true
      · simp only [saveMemberCalls, himp, if_true, keys_cons, List.filterMap_cons,
          Option.bind_some, ih]
      · simp only [saveMemberCalls, himp, List.filterMap_cons, Option.bind_some]
        exact ih

/-! ## Entities that can be saved -/

/-- The members an adapter visits: those that are not null and of its type. -/
def Visited (A : Adapter T D C) (membersMap : List (Key × Option (Entity T D))) (k : Key)
    (m : Entity T D) : Prop :=
  (k, some m) ∈ membersMap ∧ A.implements m.type = true

theorem Visited.cons {A : Adapter T D C} {membersMap : List (Key × Option (Entity T D))}
    {p : Key × Option (Entity T D)} {k : Key} {m : Entity T D} (h : Visited A membersMap k m) :
    Visited A (p :: membersMap) k m :=
  ⟨List.mem_cons_of_mem p h.1, h.2⟩

/-- An entity tree below the path `parentKey` whose keys are plain, whose visited members still
carry the key they were aggregated under, and whose `Save`, called with its own directory, returns
and only adds properties, under names of no member. -/
inductive Saveable (A : Adapter T D C) (directory : Str → C) : Entity T D → Str → Prop where
  | mk {key : Key} {type : T} {data : D} {membersMap : List (Key × Option (Entity T D))}
      {ctors : List (Key × T)} {parentKey : Str} {node : Ptree} (plain : PlainKey key)
      (sorted : Sorted membersMap)
      (save : (A.save type data (directory (searchPathOf parentKey key))).run LTree.empty =
        .ok () node)
      (names : ∀ k ∈ node.labels, k ∉ keys membersMap)
      (carry : ∀ k m, Visited A membersMap k m → m.key = k)
      (members : ∀ k m, Visited A membersMap k m →
        Saveable A directory m (searchPathOf parentKey key)) :
      Saveable A directory (.mk key type data membersMap ctors) parentKey

theorem Saveable.plain_key {A : Adapter T D C} {directory : Str → C} {e : Entity T D}
    {parentKey : Str} (h : Saveable A directory e parentKey) : PlainKey e.key := by
  cases h with
  | mk plain => exact plain

/-- A class that keeps its data as the property `v` of its node. -/
def propertyAdapter (C : Type) : Adapter Unit Str C where
  implements _ := true
  save _ data _ := modify fun node => node.addChildren [(['v'], .node data [])]
  load _ node _ := set (((List.lookup ['v'] node.children).map LTree.data).getD [])
  entityClass := ()

/-- An entity `r` with a member `m`, loaded or not. -/
def ownerOfM (m : Option (Entity Unit Str)) : Entity Unit Str :=
  .mk ['r'] () ['1'] [(['m'], m)] []

def entityM : Entity Unit Str := .mk ['m'] () ['2'] [] []

theorem entityM_saveable (directory : Str → C) (parentKey : Str) :
    Saveable (propertyAdapter C) directory entityM parentKey := by
  refine .mk (by decide) List.Pairwise.nil rfl (by simp) ?_ ?_
  · intro k m hm
    cases hm.1
  · intro k m hm
    cases hm.1

theorem ownerOfM_saveable {m : Option (Entity Unit Str)} (h : ∀ e, m = some e → e = entityM)
    (directory : Str → C) (parentKey : Str) :
    Saveable (propertyAdapter C) directory (ownerOfM m) parentKey := by
  refine .mk (by decide) (List.pairwise_singleton _ _) rfl ?_ ?_ ?_
  · simp [LTree.labels, LTree.addChildren, LTree.empty]
  · intro k e he
    have hmem := he.1
    simp only [List.mem_singleton, Prod.mk.injEq] at hmem
    rw [h e hmem.2.symm, hmem.1]
    rfl
  · intro k e he
    have hmem := he.1
    simp only [List.mem_singleton, Prod.mk.injEq] at hmem
    rw [h e hmem.2.symm]
    exact entityM_saveable directory _

/-- A child for a member stands for a visited member. -/
theorem exists_visited_of_mem_canonicalMembers {A : Adapter T D C} {directory : Str → C}
    {searchPath : Str} {membersMap : List (Key × Option (Entity T D))}
    (carry : ∀ k m, Visited A membersMap k m → m.key = k) {k : Key}
    (h : k ∈ keys (canonicalMembers A directory membersMap searchPath)) :
    ∃ m, Visited A membersMap k m := by
  induction membersMap with
  | nil => simp [canonicalMembers] at h
  | cons p members ih =>
    have carry' : ∀ k m, Visited A members k m → m.key = k := fun k m hv => carry k m hv.cons
    have hlater : k ∈ keys (canonicalMembers A directory members searchPath) →
        ∃ m, Visited A (p :: members) k m := by
      intro hk
      obtain ⟨m, hm⟩ := ih carry' hk
      exact ⟨m, hm.cons⟩
    obtain ⟨j, pointer⟩ := p
    cases pointer with
    | none =>
      simp only [canonicalMembers] at h
      exact hlater h
    | some m =>
      unfold canonicalMembers at h
      split at h
      · rename_i himp
        have hvisited : Visited A ((j, some m) :: members) j m := ⟨List.mem_cons_self, himp⟩
        rw [keys_cons, List.mem_cons] at h
        rcases h with h | h
        · rw [h, carry j m hvisited]
          exact ⟨m, hvisited⟩
        · exact hlater h
      · exact hlater h

/-! ## Saving computes the structural tree -/

section Save

variable (P : PtreePaths) {A : Adapter T D C} (target : Path → Str → C)
  (finish : EStateM Exception (SaveState W) Unit)

theorem onNewChild_ok {x : EStateM Exception Ptree Unit} {node : Ptree} {path : Str}
    (h : x.run LTree.empty = .ok () node) (s : SaveState W) :
    (onNewChild P path x).run s = .ok () (s.setTree (P.putChild path node s.tree)) :=
  zoom_ok h

/-- The result of `saveWithParentKey`, with what is left to do when there is no parent. -/
def afterSave (parentKey : Str)
    (calls : LTree Key (SaveCall C)) : EStateM Exception (SaveState W) (LTree Key (SaveCall C)) := do
  if parentKey = [] then finish
  pure calls

theorem afterSave_below {parentKey : Str} (h : parentKey ≠ []) (calls : LTree Key (SaveCall C))
    (s : SaveState W) : (afterSave finish parentKey calls).run s = .ok calls s := by
  simp [afterSave, h]

/-- `saveWithParentKey` on one entity, given what it does on the members. -/
theorem saveWithParentKey_step {key : Key} {type : T} {data : D}
    {membersMap : List (Key × Option (Entity T D))} {ctors : List (Key × T)} {parentKey : Str}
    {s s' : SaveState W} {node : Ptree} {calls : List (Key × LTree Key (SaveCall C))} (hkey : key ≠ [])
    (hsave : (A.save type data (target s.hierarchy.serializationPath
      (searchPathOf parentKey key))).run LTree.empty = .ok () node)
    (hmembers : (saveMembers P A target finish membersMap (searchPathOf parentKey key)).run
      (s.setTree (P.putChild (searchPathOf parentKey key) node s.tree)) = .ok calls s') :
    (saveWithParentKey P A target finish (.mk key type data membersMap ctors) parentKey).run s =
      (afterSave finish parentKey (.node ⟨searchPathOf parentKey key,
        target s.hierarchy.serializationPath (searchPathOf parentKey key)⟩ calls)).run s' := by
  unfold saveWithParentKey
  rw [if_neg hkey]
  rw [bind_ok (EStateM.run_get s), bind_ok (onNewChild_ok P hsave s), bind_ok hmembers]
  unfold afterSave
  split <;> rfl

/-- The loop over the members, when the node `v` that is being filled stands at `path`: it
appends the members' trees to `v`. `hrec` is the recursive call. -/
theorem saveMembers_eq {directory : Str → C} {membersMap : List (Key × Option (Entity T D))} {path : List Key}
    (hpath : path ≠ []) (hplain : ∀ k ∈ path, PlainKey k) (hnodup : (keys membersMap).Nodup)
    (carry : ∀ k m, Visited A membersMap k m → m.key = k)
    (hrec : ∀ k m, Visited A membersMap k m → ∀ s : SaveState W,
      target s.hierarchy.serializationPath = directory → s.tree.UniqueAlong (path ++ [m.key]) →
      (saveWithParentKey P A target finish m (dotted path)).run s =
        (afterSave finish (dotted path) (saveCalls A directory m (dotted path))).run
          (s.setTree (s.tree.set (path ++ [m.key]) (canonical A directory m (dotted path)))))
    {t v : Ptree} (ht : t.UniqueAlong path) (hv : ∀ k ∈ keys membersMap, k ∉ v.labels)
    (s : SaveState W) (hdirectory : target s.hierarchy.serializationPath = directory)
    (hs : s.tree = t.set path v) :
    (saveMembers P A target finish membersMap (dotted path)).run s =
      .ok (saveMemberCalls A directory membersMap (dotted path))
        (s.setTree (t.set path (v.addChildren
          (canonicalMembers A directory membersMap (dotted path))))) := by
  induction membersMap generalizing s v with
  | nil =>
    simp only [saveMembers, saveMemberCalls, canonicalMembers, LTree.addChildren_nil,
      EStateM.run_pure]
    rw [← hs, SaveState.setTree_tree]
  | cons p members ih =>
    rw [keys_cons, List.nodup_cons] at hnodup
    have carry' : ∀ k m, Visited A members k m → m.key = k := fun k m h => carry k m h.cons
    have hrec' := fun k m (h : Visited A members k m) => hrec k m h.cons
    have hv' : ∀ k ∈ keys members, k ∉ v.labels := fun k hk => hv k (by simp [hk])
    obtain ⟨k, pointer⟩ := p
    cases pointer with
    | none =>
      simp only [saveMembers, saveMemberCalls, canonicalMembers]
      exact ih hnodup.2 carry' hrec' hv' s hdirectory hs
    | some m =>
      simp only [saveMembers, saveMemberCalls, canonicalMembers]
      split
      · rename_i himp
        have hvisited : Visited A ((k, some m) :: members) k m := ⟨List.mem_cons_self, himp⟩
        have hm : m.key = k := carry k m hvisited
        have hk : k ∉ v.labels := hv k (by simp)
        have hunique : s.tree.UniqueAlong (path ++ [m.key]) := by
          rw [hs, hm]
          exact LTree.uniqueAlong_set ht (LTree.uniqueAlong_singleton_of_not_mem hk)
        have hfirst := hrec k m hvisited s hdirectory hunique
        rw [afterSave_below finish (mt (dotted_eq_nil hplain).mp hpath)] at hfirst
        have htree : s.tree.set (path ++ [m.key]) (canonical A directory m (dotted path)) =
            t.set path (v.addChildren [(m.key, canonical A directory m (dotted path))]) := by
          rw [hs, LTree.set_set_append, LTree.set_singleton_of_not_mem (by rwa [hm])]
        rw [htree] at hfirst
        have hvnext : ∀ j ∈ keys members, j ∉ (v.addChildren [(m.key,
            canonical A directory m (dotted path))]).labels := by
          intro j hj hmem
          rw [LTree.labels_addChildren, List.mem_append, keys_cons, keys_nil,
            List.mem_singleton] at hmem
          rcases hmem with hmem | rfl
          · exact hv' j hj hmem
          · exact hnodup.1 (hm ▸ hj)
        have hrest := ih hnodup.2 carry' hrec' hvnext (s.setTree (t.set path (v.addChildren
          [(m.key, canonical A directory m (dotted path))]))) hdirectory rfl
        rw [bind_ok hfirst, bind_ok hrest]
        simp only [EStateM.run_pure, SaveState.setTree_setTree, ← LTree.addChildren_append,
          List.singleton_append]
      · exact ih hnodup.2 carry' hrec' hv' s hdirectory hs

theorem saveWithParentKey_below_path {directory : Str → C} {e : Entity T D} {parentKey : Str}
    (he : Saveable A directory e parentKey) {path : List Key} (hpath : dotted path = parentKey)
    (hplain : ∀ k ∈ path, PlainKey k) (s : SaveState W)
    (hdirectory : target s.hierarchy.serializationPath = directory)
    (hunique : s.tree.UniqueAlong (path ++ [e.key])) :
    (saveWithParentKey P A target finish e (dotted path)).run s =
      (afterSave finish (dotted path) (saveCalls A directory e (dotted path))).run
        (s.setTree (s.tree.set (path ++ [e.key]) (canonical A directory e (dotted path)))) := by
  induction he generalizing path s with
  | @mk key type data membersMap ctors parentKey node plain sorted save names carry members ih =>
    subst hpath
    have hkeys := plainKeys_concat hplain plain
    have hsearch : searchPathOf (dotted path) key = dotted (path ++ [key]) :=
      searchPathOf_dotted hplain key
    have hput : P.putChild (searchPathOf (dotted path) key) node s.tree =
        s.tree.set (path ++ [key]) node := by
      rw [hsearch]
      exact P.putChild_spec _ node s.tree (by simp) hkeys hunique
    have hloop := saveMembers_eq P target finish (by simp) hkeys sorted.nodup carry
      (fun k m hm s' hs' hunique' => ih k m hm hsearch.symm hkeys s' hs' hunique') hunique
      (fun k hk hmem => names k hmem hk) (s.setTree (s.tree.set (path ++ [key]) node)) hdirectory
      rfl
    rw [← hsearch, ← hput] at hloop
    have hsave : (A.save type data (target s.hierarchy.serializationPath
        (searchPathOf (dotted path) key))).run LTree.empty = .ok () node := by
      rw [hdirectory]
      exact save
    rw [saveWithParentKey_step P target finish plain.1 hsave hloop]
    rw [canonical_eq save]
    simp only [saveCalls, SaveState.setTree_setTree, Entity.key_mk, hdirectory]

/-- Saving an entity below `path` puts its structural tree there, in place of whatever
stood there, and changes nothing else. -/
theorem saveWithParentKey_eq {e : Entity T D} {path : List Key} {s : SaveState W}
    (he : Saveable A (target s.hierarchy.serializationPath) e (dotted path))
    (hplain : ∀ k ∈ path, PlainKey k) (hunique : s.tree.UniqueAlong (path ++ [e.key])) :
    (saveWithParentKey P A target finish e (dotted path)).run s =
      (afterSave finish (dotted path)
        (saveCalls A (target s.hierarchy.serializationPath) e (dotted path))).run
        (s.setTree (s.tree.set (path ++ [e.key])
          (canonical A (target s.hierarchy.serializationPath) e (dotted path)))) :=
  saveWithParentKey_below_path P target finish he rfl hplain s rfl hunique

end Save

end Azulejo
