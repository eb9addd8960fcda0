import Azulejo.Adapters.Loading

/-!
# Loading from a canonical tree

For entities whose members are all of the adapter's type and registered, the loop over a
canonical node's children passes over the properties and rebuilds one member per child, in
the order of the member map. `loadWithParentKey_canonical` is the induction over the entity
tree.
-/

namespace Azulejo

open AssocList Stateful Entity

variable {T D C : Type}

section Calls

variable (A : Adapter T D C) (directory : Str → C)

mutual
/-- The calls of `Load` that match `saveCalls`: each entity's node is the one its `Save`
filled, with the members' nodes. -/
def loadCalls : Entity T D → Str → LTree Key (LoadCall C)
  | .mk key type data membersMap ctors, parentKey =>
    let searchPath := searchPathOf parentKey key
    .node ⟨searchPath, canonical A directory (.mk key type data membersMap ctors) parentKey,
      directory searchPath⟩ (loadMemberCalls membersMap searchPath)
def loadMemberCalls : List (Key × Option (Entity T D)) → Str → List (Key × LTree Key (LoadCall C))
  | [], _ => []
  | (_, none) :: members, searchPath => loadMemberCalls members searchPath
  | (key, some member) :: members, searchPath =>
    if A.implements member.type then
      (key, loadCalls member searchPath) :: loadMemberCalls members searchPath
    else loadMemberCalls members searchPath
end

variable {A} {directory}

mutual
/-- The calls of `Load` go where the calls of `Save` went. -/
theorem mapData_loadCalls : ∀ (e : Entity T D) (parentKey : Str),
    (loadCalls A directory e parentKey).mapData LoadCall.saveCall =
      saveCalls A directory e parentKey
  | .mk key type data membersMap ctors, parentKey => by
      simp only [loadCalls, saveCalls, LTree.mapData, LoadCall.saveCall]
      rw [mapDataIn_loadMemberCalls membersMap]
theorem mapDataIn_loadMemberCalls : ∀ (membersMap : List (Key × Option (Entity T D)))
    (searchPath : Str), LTree.mapDataIn LoadCall.saveCall
      (loadMemberCalls A directory membersMap searchPath) =
        saveMemberCalls A directory membersMap searchPath
  | [], _ => by simp only [loadMemberCalls, saveMemberCalls, LTree.mapDataIn]
  | (_, none) :: members, searchPath => by
      simp only [loadMemberCalls, saveMemberCalls]
      exact mapDataIn_loadMemberCalls members searchPath
  | (key, some member) :: members, searchPath => by
      simp only [loadMemberCalls, saveMemberCalls]
      split
      · simp only [LTree.mapDataIn]
        rw [mapData_loadCalls member, mapDataIn_loadMemberCalls members]
      · exact mapDataIn_loadMemberCalls members searchPath
end

end Calls

/-- The registry makes entities for the key, without members. -/
def MakesEmpty (R : EntityRegistry T D) (k : Key) : Prop :=
  ∃ proto, R.keyToEntityMap k = some proto ∧ proto.membersMap = []

/-- Every member of the map is there, is of the adapter's type and carries its key. -/
def FullyLoaded (A : Adapter T D C) (membersMap : List (Key × Option (Entity T D))) : Prop :=
  ∀ p ∈ membersMap, ∃ m, p.2 = some m ∧ A.implements m.type = true ∧ m.key = p.1

/-- An entity tree below the path `parentKey` that can be saved and loaded back: the keys are plain
and registered, the members loaded, and `Save`, called with its own directory, returns and adds
properties that are neither members nor registered. -/
inductive RoundTrips (A : Adapter T D C) (R : EntityRegistry T D) (directory : Str → C) :
    Entity T D → Str → Prop where
  | mk {key : Key} {type : T} {data : D} {membersMap : List (Key × Option (Entity T D))}
      {ctors : List (Key × T)} {parentKey : Str} {node : Ptree} (plain : PlainKey key)
      (registered : MakesEmpty R key) (sorted : Sorted membersMap)
      (save : (A.save type data (directory (searchPathOf parentKey key))).run LTree.empty =
        .ok () node)
      (names : ∀ k ∈ node.labels, k ∉ keys membersMap ∧ R.hasRegisteredKey k = false)
      (loaded : FullyLoaded A membersMap)
      (members : ∀ k m, (k, some m) ∈ membersMap →
        RoundTrips A R directory m (searchPathOf parentKey key)) :
      RoundTrips A R directory (.mk key type data membersMap ctors) parentKey

/-! ## What loading makes of a new entity -/

section LoadedFrom

variable (A : Adapter T D C) (R : EntityRegistry T D) (directory : Str → C)

mutual
/-- The calls of `Load` return: on the new entity `f` with the node of the first one, and on each
entity that the registry makes for a member with the member's node. -/
def LoadsReturn : Entity T D → Str → Entity T D → Prop
  | .mk key type data membersMap ctors, parentKey, f =>
    let searchPath := searchPathOf parentKey key
    (∃ d, (A.load f.type (canonical A directory (.mk key type data membersMap ctors) parentKey)
      (directory searchPath)).run f.data = .ok () d) ∧
    MemberLoadsReturn membersMap searchPath
def MemberLoadsReturn : List (Key × Option (Entity T D)) → Str → Prop
  | [], _ => True
  | (_, none) :: members, searchPath => MemberLoadsReturn members searchPath
  | (key, some member) :: members, searchPath =>
    (∀ f, R.generateEntity key = .ok f → LoadsReturn member searchPath f) ∧
    MemberLoadsReturn members searchPath
end

mutual
/-- What loading makes of the new entity `f` from the node of the first one: its data is what its
`Load` makes of that node, and its members are those the registry makes, loaded in turn. -/
def LoadedFrom : Entity T D → Str → Entity T D → Entity T D → Prop
  | .mk key type data membersMap ctors, parentKey, f, f' =>
    let searchPath := searchPathOf parentKey key
    f'.key = key ∧ f'.type = f.type ∧
    (A.load f.type (canonical A directory (.mk key type data membersMap ctors) parentKey)
      (directory searchPath)).run f.data = .ok () f'.data ∧
    MembersLoadedFrom membersMap searchPath f'.membersMap
def MembersLoadedFrom : List (Key × Option (Entity T D)) → Str →
    List (Key × Option (Entity T D)) → Prop
  | [], _, loaded => loaded = []
  | (_, none) :: members, searchPath, loaded => MembersLoadedFrom members searchPath loaded
  | (key, some member) :: members, searchPath, loaded =>
    ∃ f f' rest, R.generateEntity key = .ok f ∧ LoadedFrom member searchPath f f' ∧
      loaded = (key, some f') :: rest ∧ MembersLoadedFrom members searchPath rest
end

variable {A R directory}

theorem MemberLoadsReturn.of_mem {membersMap : List (Key × Option (Entity T D))}
    {searchPath : Str} (h : MemberLoadsReturn A R directory membersMap searchPath) {k : Key}
    {m f : Entity T D} (hm : (k, some m) ∈ membersMap) (hgen : R.generateEntity k = .ok f) :
    LoadsReturn A R directory m searchPath f := by
  induction membersMap with
  | nil => cases hm
  | cons p members ih =>
    obtain ⟨j, pointer⟩ := p
    cases pointer with
    | none =>
      rw [MemberLoadsReturn] at h
      rcases List.mem_cons.mp hm with heq | hmem
      · cases heq
      · exact ih h hmem
    | some member =>
      rw [MemberLoadsReturn] at h
      rcases List.mem_cons.mp hm with heq | hmem
      · cases heq
        exact h.1 f hgen
      · exact ih h.2 hmem

end LoadedFrom

section Results

variable {A : Adapter T D C} {R : EntityRegistry T D}

theorem FullyLoaded.of_cons {p : Key × Option (Entity T D)}
    {membersMap : List (Key × Option (Entity T D))} (h : FullyLoaded A (p :: membersMap)) :
    FullyLoaded A membersMap :=
  fun q hq => h q (List.mem_cons_of_mem p hq)

theorem FullyLoaded.carry {membersMap : List (Key × Option (Entity T D))}
    (h : FullyLoaded A membersMap) {k : Key} {m : Entity T D} (hm : (k, some m) ∈ membersMap) :
    m.key = k := by
  obtain ⟨m', hm', _, hkey⟩ := h (k, some m) hm
  cases hm'
  exact hkey

theorem RoundTrips.saveable {directory : Str → C} {e : Entity T D} {parentKey : Str}
    (h : RoundTrips A R directory e parentKey) : Saveable A directory e parentKey := by
  induction h with
  | mk plain _ sorted save names loaded _ ih =>
    exact .mk plain sorted save (fun k hk => (names k hk).1) (fun k m hm => loaded.carry hm.1)
      fun k m hm => ih k m hm.1

theorem RoundTrips.key {directory : Str → C} {e : Entity T D} {parentKey : Str}
    (h : RoundTrips A R directory e parentKey) : PlainKey e.key ∧ MakesEmpty R e.key := by
  cases h with
  | mk plain registered => exact ⟨plain, registered⟩

/-- With every member loaded, the member nodes have the keys of the map, in order. -/
theorem keys_canonicalMembers (directory : Str → C) (searchPath : Str)
    {membersMap : List (Key × Option (Entity T D))} (h : FullyLoaded A membersMap) :
    keys (canonicalMembers A directory membersMap searchPath) = keys membersMap := by
  induction membersMap with
  | nil => simp [canonicalMembers]
  | cons p members ih =>
    obtain ⟨k, pointer⟩ := p
    obtain ⟨m, hm, himp, hkey⟩ := h (k, pointer) List.mem_cons_self
    simp only at hm hkey
    subst hm
    simp only [canonicalMembers, himp, if_true, keys_cons, hkey, ih h.of_cons]

theorem mem_canonicalMembers {directory : Str → C} {searchPath : Str}
    {membersMap : List (Key × Option (Entity T D))} (h : FullyLoaded A membersMap) {k : Key}
    {m : Entity T D} (hm : (k, some m) ∈ membersMap) :
    (k, canonical A directory m searchPath) ∈ canonicalMembers A directory membersMap searchPath := by
  induction membersMap with
  | nil => cases hm
  | cons p members ih =>
    obtain ⟨j, pointer⟩ := p
    obtain ⟨m', hm', himp, hkey⟩ := h (j, pointer) List.mem_cons_self
    simp only at hm' hkey
    subst hm'
    simp only [canonicalMembers, himp, if_true]
    rcases List.mem_cons.mp hm with heq | hmem
    · cases heq
      rw [hkey]
      exact List.mem_cons_self
    · exact List.mem_cons_of_mem _ (ih h.of_cons hmem)

/-- In the canonical node, below the properties `Save` adds, each member has its own node. -/
theorem lookup_addChildren_canonicalMembers (directory : Str → C) (searchPath : Str)
    {membersMap : List (Key × Option (Entity T D))} (sorted : Sorted membersMap)
    (loaded : FullyLoaded A membersMap) {node : Ptree}
    (hnames : ∀ k ∈ node.labels, k ∉ keys membersMap) {k : Key} {m : Entity T D}
    (hm : (k, some m) ∈ membersMap) :
    List.lookup k
        (node.addChildren (canonicalMembers A directory membersMap searchPath)).children =
      some (canonical A directory m searchPath) := by
  have hnot : k ∉ keys node.children := fun hk => hnames k hk (mem_keys_of_mem hm)
  have hnodup : (keys (canonicalMembers A directory membersMap searchPath)).Nodup := by
    rw [keys_canonicalMembers directory searchPath loaded]
    exact sorted.nodup
  rw [LTree.addChildren, LTree.children_node, lookup_append_of_not_mem hnot]
  exact lookup_of_nodup hnodup (mem_canonicalMembers loaded hm)

theorem uniqueAlong_addChildren_canonicalMembers (directory : Str → C) (searchPath : Str)
    {membersMap : List (Key × Option (Entity T D))} (sorted : Sorted membersMap)
    (loaded : FullyLoaded A membersMap) {node : Ptree}
    (hnames : ∀ k ∈ node.labels, k ∉ keys membersMap) {k : Key} {m : Entity T D}
    (hm : (k, some m) ∈ membersMap) :
    (node.addChildren (canonicalMembers A directory membersMap searchPath)).UniqueAlong [k] := by
  refine ⟨?_, fun _ _ => trivial⟩
  have hzero : node.labels.count k = 0 :=
    List.count_eq_zero_of_not_mem fun hk => hnames k hk (mem_keys_of_mem hm)
  have hone : (keys membersMap).count k ≤ 1 := List.nodup_iff_count_le_one.mp sorted.nodup k
  have hsplit : (node.addChildren (canonicalMembers A directory membersMap searchPath)).labels =
      node.labels ++ keys membersMap := by
    rw [LTree.labels_addChildren, keys_canonicalMembers directory searchPath loaded]
  rw [hsplit, List.count_append]
  omega

theorem generateEntity_makesEmpty {k : Key} (h : MakesEmpty R k) :
    R.hasRegisteredKey k = true ∧
      ∃ m, R.generateEntity k = .ok m ∧ m.key = k ∧ m.membersMap = [] := by
  obtain ⟨proto, hproto, hempty⟩ := h
  have hgen : R.generateEntity k = .ok (proto.setKey k) :=
    generateEntity_eq_ok.mpr ⟨proto, hproto, rfl⟩
  exact ⟨hasRegisteredKey_iff.mpr ⟨_, hgen⟩, proto.setKey k, hgen, rfl, hempty⟩

/-- The loop over the members' nodes adds the members in key order. `hrec` is the recursive
call on a new entity. -/
theorem loadMembers_canonicalMembers {directory : Str → C} {searchPath : Str}
    {loadMember : EStateM Exception (Entity T D) (LTree Key (LoadCall C))}
    {membersMap : List (Key × Option (Entity T D))} (sorted : Sorted membersMap)
    (loaded : FullyLoaded A membersMap)
    (keysOk : ∀ k m, (k, some m) ∈ membersMap → PlainKey k ∧ MakesEmpty R k)
    (hrec : ∀ k m, (k, some m) ∈ membersMap → ∀ f : Entity T D, R.generateEntity k = .ok f →
      f.key = k → f.membersMap = [] →
      ∃ f', loadMember.run f = .ok (loadCalls A directory m searchPath) f' ∧
        f'.keyTree = m.keyTree ∧ LoadedFrom A R directory m searchPath f f')
    (e : Entity T D) (hlt : ∀ j ∈ keys e.membersMap, ∀ k ∈ keys membersMap, j < k) :
    ∃ e' members, (loadMembers A R loadMember
        (canonicalMembers A directory membersMap searchPath)).run e =
          .ok (loadMemberCalls A directory membersMap searchPath) e' ∧
      e'.membersMap = e.membersMap ++ members ∧ keyTrees members = keyTrees membersMap ∧
      MembersLoadedFrom A R directory membersMap searchPath members := by
  induction membersMap generalizing e with
  | nil =>
    refine ⟨e, [], ?_, (List.append_nil _).symm, rfl, ?_⟩
    · simp [canonicalMembers, loadMemberCalls, loadMembers]
    · rw [MembersLoadedFrom]
  | cons p members ih =>
    obtain ⟨k, pointer⟩ := p
    obtain ⟨m, hm, himp, hkey⟩ := loaded (k, pointer) List.mem_cons_self
    simp only at hm hkey
    subst hm
    obtain ⟨hplain, hmakes⟩ := keysOk k m List.mem_cons_self
    obtain ⟨hreg, f, hgen, hfkey, hfempty⟩ := generateEntity_makesEmpty hmakes
    obtain ⟨f', hload, htree, hfrom⟩ := hrec k m List.mem_cons_self f hgen hfkey hfempty
    have habove : ∀ j ∈ keys e.membersMap, j < k := fun j hj => hlt j hj k (by simp)
    have hfree : k ∉ keys e.membersMap := fun hk => lt_irrefl k (habove k hk)
    obtain ⟨hfirst, hsorted⟩ := sorted_cons.mp sorted
    have hmap : (withMember A.entityClass k f' e).membersMap = e.membersMap ++ [(k, some f')] := by
      rw [membersMap_withMember, insertSorted_of_gt habove]
    have hltnext : ∀ j ∈ keys (withMember A.entityClass k f' e).membersMap,
        ∀ i ∈ keys members, j < i := by
      intro j hj i hi
      rw [hmap, keys_append, List.mem_append] at hj
      rcases hj with hj | hj
      · exact hlt j hj i (by simp [hi])
      · rw [List.mem_singleton.mp hj]
        exact hfirst i hi
    obtain ⟨e', added, hrest, hmembers, htrees, hmembersFrom⟩ := ih hsorted loaded.of_cons
      (fun j n hn => keysOk j n (List.mem_cons_of_mem _ hn))
      (fun j n hn => hrec j n (List.mem_cons_of_mem _ hn)) _ hltnext
    refine ⟨e', (k, some f') :: added, ?_, ?_, ?_, ?_⟩
    · simp only [canonicalMembers, loadMemberCalls, himp, if_true, hkey]
      exact loadMembers_registered hreg hplain.1 hfree hgen hload hrest
    · rw [hmembers, hmap, List.append_assoc]
      rfl
    · simp only [keyTrees, htree, htrees]
    · rw [MembersLoadedFrom]
      exact ⟨f, f', added, hgen, hfrom, rfl, hmembersFrom⟩

variable (P : PtreePaths) (target : Path → Str → C) (h : EntityHierarchy) (cannotLocate : Str)

/-- One level: an entity is rebuilt from its canonical node when each member is rebuilt from
the node below it. -/
theorem loadWithParentKey_level {key : Key} {type : T} {data : D}
    {membersMap : List (Key × Option (Entity T D))} {ctors : List (Key × T)} {path : List Key}
    (he : RoundTrips A R (target h.serializationPath) (.mk key type data membersMap ctors)
      (dotted path))
    (hplain : ∀ k ∈ path, PlainKey k) {node : Ptree}
    (hcanonical : canonical A (target h.serializationPath) (.mk key type data membersMap ctors)
        (dotted path) =
      node.addChildren (canonicalMembers A (target h.serializationPath) membersMap
        (dotted (path ++ [key]))))
    (hnames : ∀ k ∈ node.labels, R.hasRegisteredKey k = false)
    (hget : h.serializationStructure.get? (path ++ [key]) =
      some (canonical A (target h.serializationPath) (.mk key type data membersMap ctors)
        (dotted path)))
    (hunique : h.serializationStructure.UniqueAlong (path ++ [key])) {n : Nat}
    (hmember : ∀ k m, (k, some m) ∈ membersMap → ∀ f : Entity T D, R.generateEntity k = .ok f →
      f.key = k → f.membersMap = [] →
      ∃ f', (loadWithParentKey P A R target h cannotLocate n (dotted (path ++ [key]))).run f =
          .ok (loadCalls A (target h.serializationPath) m (dotted (path ++ [key]))) f' ∧
        f'.keyTree = m.keyTree ∧
        LoadedFrom A R (target h.serializationPath) m (dotted (path ++ [key])) f f')
    {f : Entity T D} (hfkey : f.key = key) (hfempty : f.membersMap = [])
    (hload : LoadsReturn A R (target h.serializationPath) (.mk key type data membersMap ctors)
      (dotted path) f) :
    ∃ f', (loadWithParentKey P A R target h cannotLocate (n + 1) (dotted path)).run f =
        .ok (loadCalls A (target h.serializationPath) (.mk key type data membersMap ctors)
          (dotted path)) f' ∧
      f'.keyTree = (Entity.mk key type data membersMap ctors).keyTree ∧
      LoadedFrom A R (target h.serializationPath) (.mk key type data membersMap ctors)
        (dotted path) f f' := by
  obtain ⟨plain, _, sorted, _, _, loaded, members⟩ := he
  have hsearch : searchPathOf (dotted path) key = dotted (path ++ [key]) :=
    searchPathOf_dotted hplain key
  rw [LoadsReturn] at hload
  obtain ⟨⟨d, hd⟩, -⟩ := hload
  obtain ⟨f', added, hrun, hmembers, htrees, hfrom⟩ := loadMembers_canonicalMembers sorted loaded
    (fun k m hm => by
      have hk := (members k m hm).key
      rwa [loaded.carry hm] at hk)
    hmember (f.setData d) (by simp [hfempty])
  rw [membersMap_setData, hfempty, List.nil_append] at hmembers
  obtain ⟨hfkey', hftype', hfdata'⟩ := kept_of_loadMembers hrun
  rw [key_setData, hfkey] at hfkey'
  refine ⟨f', ?_, ?_, ?_⟩
  · have hchildren : (canonical A (target h.serializationPath)
        (.mk key type data membersMap ctors) (dotted path)).children =
        node.children ++ canonicalMembers A (target h.serializationPath) membersMap
          (dotted (path ++ [key])) := by
      rw [hcanonical]
      rfl
    have hfound : P.getChildOptional (searchPathOf (dotted path) f.key)
        h.serializationStructure = some (canonical A (target h.serializationPath)
          (.mk key type data membersMap ctors) (dotted path)) := by
      rw [hfkey, hsearch, P.getChildOptional_spec _ _ (by simp) (plainKeys_concat hplain plain)
        hunique, hget]
    have hloop : (loadMembers A R (loadWithParentKey P A R target h cannotLocate n
          (searchPathOf (dotted path) f.key)) (canonical A (target h.serializationPath)
            (.mk key type data membersMap ctors) (dotted path)).children).run (f.setData d) =
        .ok (loadMemberCalls A (target h.serializationPath) membersMap
          (dotted (path ++ [key]))) f' := by
      rw [hchildren, loadMembers_append_unregistered hnames, hfkey, hsearch]
      exact hrun
    have hownLoad : (A.load f.type (canonical A (target h.serializationPath)
        (.mk key type data membersMap ctors) (dotted path)) (target h.serializationPath
          (searchPathOf (dotted path) f.key))).run f.data = .ok () d := by
      rw [hfkey]
      exact hd
    rw [loadWithParentKey_ok P A R target h cannotLocate (by rw [hfkey]; exact plain.1) hfound
      hownLoad hloop, hfkey]
    simp only [loadCalls, hsearch]
  · rw [keyTree_eq f', hfkey', hmembers, htrees]
    simp only [keyTree]
  · rw [LoadedFrom, hsearch, hmembers]
    refine ⟨hfkey', hftype', ?_, hfrom⟩
    rw [← hsearch, show f'.data = d from hfdata']
    exact hd

/-- A new entity with the key of `e`, loaded where the canonical tree of `e` stands, is loaded from
the nodes of `e`, by the calls of `Load` that match the calls of `Save`, and gets the keys of `e`
at every level. -/
theorem loadWithParentKey_canonical {e : Entity T D} {parentKey : Str}
    (he : RoundTrips A R (target h.serializationPath) e parentKey) {path : List Key}
    (hpath : dotted path = parentKey) (hplain : ∀ k ∈ path, PlainKey k)
    (hget : h.serializationStructure.get? (path ++ [e.key]) =
      some (canonical A (target h.serializationPath) e (dotted path)))
    (hunique : h.serializationStructure.UniqueAlong (path ++ [e.key])) {fuel : Nat}
    (hfuel : (canonical A (target h.serializationPath) e (dotted path)).height < fuel)
    {f : Entity T D} (hfkey : f.key = e.key) (hfempty : f.membersMap = [])
    (hload : LoadsReturn A R (target h.serializationPath) e (dotted path) f) :
    ∃ f', (loadWithParentKey P A R target h cannotLocate fuel (dotted path)).run f =
        .ok (loadCalls A (target h.serializationPath) e (dotted path)) f' ∧
      f'.keyTree = e.keyTree ∧ LoadedFrom A R (target h.serializationPath) e (dotted path) f f' := by
  induction he generalizing path fuel f with
  | @mk key type data membersMap ctors parentKey node plain registered sorted save names loaded
      members ih =>
    subst hpath
    rw [key_mk] at hget hunique hfkey
    obtain ⟨n, rfl⟩ : ∃ n, fuel = n + 1 := ⟨fuel - 1, by omega⟩
    have hsearch : searchPathOf (dotted path) key = dotted (path ++ [key]) :=
      searchPathOf_dotted hplain key
    have hnotMember : ∀ k ∈ node.labels, k ∉ keys membersMap := fun k hk => (names k hk).1
    have hcanonical : canonical A (target h.serializationPath)
          (.mk key type data membersMap ctors) (dotted path) =
        node.addChildren (canonicalMembers A (target h.serializationPath) membersMap
          (dotted (path ++ [key]))) := by
      rw [canonical_eq save, hsearch]
    apply loadWithParentKey_level P target h cannotLocate
      (.mk plain registered sorted save names loaded members) hplain hcanonical
      (fun k hk => (names k hk).2) hget hunique _ hfkey hfempty hload
    -- a member's node is in the canonical node, where its key is unambiguous
    intro k m hm g hgen hg hempty
    have hmkey : m.key = k := loaded.carry hm
    have hmload : LoadsReturn A R (target h.serializationPath) m (dotted (path ++ [key])) g := by
      rw [LoadsReturn, hsearch] at hload
      exact hload.2.of_mem hm hgen
    refine ih k m hm hsearch.symm (plainKeys_concat hplain plain) ?_ ?_ ?_ (by rw [hg, hmkey])
      hempty hmload
    · rw [LTree.get?_concat hget, hcanonical, hmkey]
      exact lookup_addChildren_canonicalMembers _ _ sorted loaded hnotMember hm
    · refine LTree.uniqueAlong_append hunique ?_
      intro s hs
      rw [hget] at hs
      cases hs
      rw [hcanonical, hmkey]
      exact uniqueAlong_addChildren_canonicalMembers _ _ sorted loaded hnotMember hm
    · rw [hcanonical] at hfuel
      have hbelow := LTree.height_lt_of_lookup (lookup_addChildren_canonicalMembers
        (target h.serializationPath) (dotted (path ++ [key])) sorted loaded hnotMember hm)
      omega

end Results

end Azulejo
