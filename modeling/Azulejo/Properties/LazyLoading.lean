import Azulejo.Adapters.Loading
import Azulejo.FilesystemAdapters.EntityAdapters
import Azulejo.DatabaseAdapters.EntityAdapters

/-!
# Lazy and eager loading

Eager loading reaches a member through the path of its parent, lazy loading searches the
whole hierarchy for the bare key. `loadsLazily_iff` compares the two runs: they agree, from
the member's own node, exactly when both searches find the nodes that are meant.
-/

namespace Azulejo

open AssocList Stateful Entity

variable {T D C : Type}

/-! ## What the loop has loaded -/

section Loop

variable {A : Adapter T D C} {R : EntityRegistry T D}
  {loadMember : EStateM Exception (Entity T D) (LTree Key (LoadCall C))}

/-- Members under other keys than those of the children are not touched. -/
theorem loadMembers_frame {cs : List (Key × Ptree)} {e e' : Entity T D}
    {calls : List (Key × LTree Key (LoadCall C))}
    (h : (loadMembers A R loadMember cs).run e = .ok calls e') {k : Key} (hk : k ∉ keys cs) :
    List.lookup k e'.membersMap = List.lookup k e.membersMap := by
  refine loadMembers_keeps (Q := fun e' =>
    List.lookup k e'.membersMap = List.lookup k e.membersMap) h ?_ rfl
  intro j hj _ m e' _ hlookup
  have hkj : k ≠ j := by
    rintro rfl
    exact hk hj
  rw [membersMap_withMember, lookup_insertSorted_ne hkj]
  exact hlookup

/-- Each registered child was loaded, from a new entity, and its run is in the calls. -/
theorem of_loadMembers_mem {cs : List (Key × Ptree)} {e e' : Entity T D}
    {calls : List (Key × LTree Key (LoadCall C))}
    (h : (loadMembers A R loadMember cs).run e = .ok calls e') (hnodup : (keys cs).Nodup)
    {k : Key} (hk : k ∈ keys cs) (hreg : R.hasRegisteredKey k = true) :
    ∃ m m' first, R.generateEntity k = .ok m ∧ loadMember.run m = .ok first m' ∧
      List.lookup k calls = some first ∧ List.lookup k e'.membersMap = some (some m') := by
  induction cs generalizing e calls with
  | nil => simp at hk
  | cons p cs ih =>
    obtain ⟨j, c⟩ := p
    rw [keys_cons, List.nodup_cons] at hnodup
    simp only [keys_cons, List.mem_cons] at hk
    by_cases hj : k = j
    · subst hj
      obtain ⟨m, m', first, more, _, _, hgen, hload, hrest, rfl⟩ :=
        of_loadMembers_registered hreg h
      refine ⟨m, m', first, hgen, hload, lookup_cons_self k first more, ?_⟩
      rw [loadMembers_frame hrest hnodup.1, membersMap_withMember, lookup_insertSorted_self]
    · have hk' : k ∈ keys cs := hk.resolve_left hj
      cases hregj : R.hasRegisteredKey j with
      | false =>
        rw [loadMembers_unregistered hregj] at h
        exact ih h hnodup.2 hk'
      | true =>
        obtain ⟨_, _, first, more, _, _, _, _, hrest, rfl⟩ :=
          of_loadMembers_registered hregj h
        obtain ⟨m, m', firstk, hgen, hload, hcalls, hmember⟩ := ih hrest hnodup.2 hk'
        exact ⟨m, m', firstk, hgen, hload, by rw [lookup_cons_ne (Ne.symm hj), hcalls], hmember⟩

end Loop

/-! ## The two searches -/

section Search

variable (P : PtreePaths) (A : Adapter T D C) (R : EntityRegistry T D)
  (target : Path → Str → C) (h : EntityHierarchy) (cannotLocate : Str)

/-- The recorded position of a run: the entity's key below the parent path. -/
theorem searchPath_of_loadWithParentKey {fuel : Nat} {parentKey : Str} {e e' : Entity T D}
    {calls : LTree Key (LoadCall C)}
    (hrun : (loadWithParentKey P A R target h cannotLocate fuel parentKey).run e =
      .ok calls e') : calls.data.searchPath = searchPathOf parentKey e.key := by
  obtain ⟨_, _, _, _, _, _, _, _, _, rfl⟩ :=
    of_loadWithParentKey_ok P A R target h cannotLocate hrun
  rfl

/-- The loop records each member's run below the parent's path. -/
theorem searchPath_of_loadMembers {n : Nat} {searchPath : Str} {cs : List (Key × Ptree)}
    {e e' : Entity T D} {calls : List (Key × LTree Key (LoadCall C))}
    (hrun : (loadMembers A R (loadWithParentKey P A R target h cannotLocate n searchPath) cs).run e
      = .ok calls e') {k : Key} {c : LTree Key (LoadCall C)}
    (hc : List.lookup k calls = some c) : c.data.searchPath = searchPathOf searchPath k := by
  induction cs generalizing e calls with
  | nil =>
    cases hrun
    cases hc
  | cons p cs ih =>
    obtain ⟨j, t⟩ := p
    cases hreg : R.hasRegisteredKey j with
    | false =>
      rw [loadMembers_unregistered hreg] at hrun
      exact ih hrun hc
    | true =>
      obtain ⟨m, m', first, more, _, _, hgen, hload, hrest, rfl⟩ :=
        of_loadMembers_registered hreg hrun
      by_cases hj : j = k
      · subst hj
        rw [lookup_cons_self] at hc
        cases hc
        have hpath := searchPath_of_loadWithParentKey P A R target h cannotLocate hload
        rwa [key_of_generateEntity hgen] at hpath
      · rw [lookup_cons_ne hj] at hc
        exact ih hrest hc

/-- What `LoadEntity` has done when it returns: it found the first node with the key and
loaded from there. -/
theorem of_loadByKey_ok {e e' : Entity T D} {calls : LTree Key (LoadCall C)}
    (hkey : PlainKey e.key)
    (hrun : (loadByKey P A R target h cannotLocate).run e = .ok (some calls) e') :
    ∃ q, h.serializationStructure.firstPath e.key = some (q ++ [e.key]) ∧
      (loadWithParentKey P A R target h cannotLocate (h.serializationStructure.height + 1)
        (dotted q)).run e = .ok calls e' := by
  rw [loadByKey_eq P A R target h cannotLocate hkey] at hrun
  cases hfirst : h.serializationStructure.firstPath e.key with
  | none =>
    rw [hfirst] at hrun
    cases hrun
  | some p =>
    obtain ⟨q, rfl⟩ := LTree.firstPath_eq_concat hfirst
    rw [hfirst] at hrun
    simp only [List.dropLast_concat] at hrun
    obtain ⟨calls', e₁, hload, hrest⟩ := of_bind_ok hrun
    cases hrest
    exact ⟨q, rfl, hload⟩

theorem loadByKey_ok {e e' : Entity T D} {calls : LTree Key (LoadCall C)} {q : List Key}
    (hkey : PlainKey e.key)
    (hfirst : h.serializationStructure.firstPath e.key = some (q ++ [e.key]))
    (hrun : (loadWithParentKey P A R target h cannotLocate
      (h.serializationStructure.height + 1) (dotted q)).run e = .ok calls e') :
    (loadByKey P A R target h cannotLocate).run e = .ok (some calls) e' := by
  rw [loadByKey_eq P A R target h cannotLocate hkey, hfirst]
  simp only [List.dropLast_concat]
  rw [bind_ok hrun]
  rfl

/-- `GetAggregatedMember(k)` on the placeholder `k` of `e` loads the same member, by the same
calls of `Load`, as `eager`, a run of `LoadEntity` on `e` without members that left `full`,
did for `k`; and it loads it from the node at `path`. -/
def LoadsLike (lazy : EStateM.Result Exception (Entity T D)
      (Option (Entity T D) × Option (LTree Key (LoadCall C))))
    (eager : LTree Key (LoadCall C)) (full : Entity T D) (k : Key) (path : List Key) : Prop :=
  ∃ m calls e', lazy = .ok (some m, some calls) e' ∧ List.lookup k eager.children = some calls ∧
    List.lookup k full.membersMap = some (some m) ∧ calls.data.searchPath = dotted path

/-- A null pointer under a registered key is loaded through a new entity. -/
theorem getAggregatedMember_eq_ok
    {loadEntity : EStateM Exception (Entity T D) (Option (LTree Key (LoadCall C)))}
    {e m e' : Entity T D} {k : Key} {calls : LTree Key (LoadCall C)}
    (hnull : List.lookup k e.membersMap = some none) (hreg : R.hasRegisteredKey k = true) :
    (getAggregatedMember R loadEntity k).run e = .ok (some m, some calls) e' ↔
      ∃ proto, R.generateEntity k = .ok proto ∧ loadEntity.run proto = .ok (some calls) m ∧
        e' = e.setMembersMap (setIn k (some m) e.membersMap) := by
  obtain ⟨proto, hgen⟩ := hasRegisteredKey_iff.mp hreg
  rw [getAggregatedMember_of_null hnull hgen]
  constructor
  · intro hrun
    cases hload : loadEntity.run proto with
    | error err s =>
      rw [hload] at hrun
      cases hrun
    | ok calls' entity' =>
      rw [hload] at hrun
      cases hrun
      exact ⟨_, hgen, hload, rfl⟩
  · rintro ⟨proto', hgen', hload, rfl⟩
    rw [hgen] at hgen'
    cases hgen'
    rw [hload]

/-- A member is loaded through its placeholder from the first node with its key. -/
theorem searchPath_of_getAggregatedMember (hplain : PlainTree h.serializationStructure)
    (hdistinct : h.serializationStructure.Distinct) {e m e' : Entity T D} {k : Key}
    {calls : LTree Key (LoadCall C)} (hk : PlainKey k)
    (hnull : List.lookup k e.membersMap = some none) (hreg : R.hasRegisteredKey k = true)
    (hlazy : (getAggregatedMember R (loadByKey P A R target h cannotLocate) k).run e =
      .ok (some m, some calls) e') :
    ∃ path, h.serializationStructure.firstPath k = some path ∧ (∀ j ∈ path, PlainKey j) ∧
      calls.data.searchPath = dotted path := by
  obtain ⟨proto, hgen, hrun, _⟩ := (getAggregatedMember_eq_ok R hnull hreg).mp hlazy
  have hproto : proto.key = k := key_of_generateEntity hgen
  obtain ⟨q, hfirst, hload⟩ := of_loadByKey_ok P A R target h cannotLocate
    (by rw [hproto]; exact hk) hrun
  rw [hproto] at hfirst
  obtain ⟨_, hnode⟩ := hdistinct.get?_firstPath hfirst
  obtain ⟨hkeys, _⟩ := hplain.of_get? hnode
  refine ⟨q ++ [k], hfirst, hkeys, ?_⟩
  rw [searchPath_of_loadWithParentKey P A R target h cannotLocate hload, hproto]
  exact searchPathOf_dotted (fun j hj => hkeys j (by simp [hj])) k

/-- An eager run on an entity without members has run the loop over the members' nodes, at the
first node with the entity's key. -/
theorem of_loadByKey_withoutMembers (hplain : PlainTree h.serializationStructure)
    (hdistinct : h.serializationStructure.Distinct) {e full : Entity T D}
    {eager : LTree Key (LoadCall C)} (hkey : PlainKey e.key)
    (heager : (loadByKey P A R target h cannotLocate).run (e.setMembersMap []) =
      .ok (some eager) full) :
    ∃ q node n d, n ≤ h.serializationStructure.height ∧
      h.serializationStructure.firstPath e.key = some (q ++ [e.key]) ∧
      (∀ j ∈ q ++ [e.key], PlainKey j) ∧
      h.serializationStructure.get? (q ++ [e.key]) = some node ∧
      (loadMembers A R (loadWithParentKey P A R target h cannotLocate n (dotted (q ++ [e.key])))
        node.children).run ((e.setMembersMap []).setData d) = .ok eager.children full := by
  obtain ⟨q, hfirst, hload⟩ := of_loadByKey_ok P A R target h cannotLocate
    (e := e.setMembersMap []) hkey heager
  rw [key_setMembersMap] at hfirst
  obtain ⟨n, tree, d, members, hn, _, hfound, _, hmembers, rfl⟩ :=
    of_loadWithParentKey_ok P A R target h cannotLocate hload
  rw [key_setMembersMap] at hfound hmembers
  obtain ⟨_, hnode⟩ := hdistinct.get?_firstPath hfirst
  obtain ⟨hkeys, _⟩ := hplain.of_get? hnode
  have hsearch : searchPathOf (dotted q) e.key = dotted (q ++ [e.key]) :=
    searchPathOf_dotted (fun j hj => hkeys j (by simp [hj])) e.key
  rw [hsearch, P.getChildOptional_spec _ _ (by simp) hkeys (hdistinct.uniqueAlong _)] at hfound
  rw [hsearch] at hmembers
  exact ⟨q, tree, n, d, by omega, hfirst, hkeys, hfound, hmembers⟩

/-- Lazy and eager loading agree, from the member's own node, exactly when the search for
each of the two keys finds the node that is meant. -/
theorem loadsLazily_iff (hplain : PlainTree h.serializationStructure)
    (hdistinct : h.serializationStructure.Distinct) {e full : Entity T D} {p : List Key} {k : Key}
    {node subtree : Ptree} {eager : LTree Key (LoadCall C)}
    (hnode : h.serializationStructure.get? (p ++ [e.key]) = some node)
    (hmember : h.serializationStructure.get? (p ++ [e.key] ++ [k]) = some subtree)
    (hnull : List.lookup k e.membersMap = some none) (hreg : R.hasRegisteredKey k = true)
    (heager : (loadByKey P A R target h cannotLocate).run (e.setMembersMap []) =
      .ok (some eager) full) :
    LoadsLike ((getAggregatedMember R (loadByKey P A R target h cannotLocate) k).run e) eager
        full k (p ++ [e.key] ++ [k]) ↔
      h.serializationStructure.firstPath e.key = some (p ++ [e.key]) ∧
        h.serializationStructure.firstPath k = some (p ++ [e.key] ++ [k]) := by
  obtain ⟨hkeys, _⟩ := hplain.of_get? hmember
  have hekey : PlainKey e.key := hkeys _ (by simp)
  have hk : PlainKey k := hkeys _ (by simp)
  obtain ⟨q, found, n, d, hn, hfirst, hqkeys, hfound, hmembers⟩ :=
    of_loadByKey_withoutMembers P A R target h cannotLocate hplain hdistinct hekey heager
  constructor
  · rintro ⟨m, calls, e', hlazy, hcalls, _, hpath⟩
    obtain ⟨r, hrfirst, hrkeys, hlazyPath⟩ := searchPath_of_getAggregatedMember P A R target h
      cannotLocate hplain hdistinct hk hnull hreg hlazy
    have heagerPath := searchPath_of_loadMembers P A R target h cannotLocate hmembers hcalls
    rw [hpath] at hlazyPath
    rw [searchPathOf_dotted hqkeys, hpath] at heagerPath
    have hr := dotted_inj hkeys hrkeys hlazyPath
    have hqp := dotted_inj hkeys (plainKeys_concat hqkeys hk) heagerPath
    have hqp' : p ++ [e.key] = q ++ [e.key] := List.append_cancel_right hqp
    exact ⟨by rw [hfirst, hqp'], by rw [hrfirst, hr]⟩
  · rintro ⟨hefirst, hkfirst⟩
    rw [hfirst, Option.some.injEq] at hefirst
    rw [hefirst, hnode, Option.some.injEq] at hfound
    subst hfound
    have hlookup : List.lookup k node.children = some subtree := by
      rw [← LTree.get?_concat hnode, hmember]
    obtain ⟨proto, m, first, hgen, hload, hcalls, hfull⟩ := of_loadMembers_mem hmembers
      (hdistinct.of_get? hnode).nodup (lookup_some_mem_keys hlookup) hreg
    have hproto : proto.key = k := key_of_generateEntity hgen
    have hle : n ≤ h.serializationStructure.height + 1 := by omega
    have hload' := loadWithParentKey_mono P A R target h cannotLocate hle hload
    have hpath := searchPath_of_loadWithParentKey P A R target h cannotLocate hload'
    rw [hproto, searchPathOf_dotted hqkeys, hefirst] at hpath
    rw [hefirst] at hload'
    have hrun := loadByKey_ok P A R target h cannotLocate (by rw [hproto]; exact hk)
      (by rw [hproto]; exact hkfirst) hload'
    refine ⟨m, first, _, (getAggregatedMember_eq_ok R hnull hreg).mpr ⟨proto, hgen, hrun, rfl⟩,
      hcalls, hfull, hpath⟩

end Search

/-! ## The two adapters -/

/-- `e` stands for the node at `p ++ [e.key]` of a hierarchy with plain keys and distinct
siblings, and has a null placeholder for a registered `k` with a node below it. -/
structure Placeholder (R : EntityRegistry T D) (tree : Ptree) (e : Entity T D) (p : List Key)
    (k : Key) : Prop where
  plain : PlainTree tree
  distinct : tree.Distinct
  node : ∃ s, tree.get? (p ++ [e.key]) = some s
  member : ∃ s, tree.get? (p ++ [e.key] ++ [k]) = some s
  null : List.lookup k e.membersMap = some none
  registered : R.hasRegisteredKey k = true

theorem hasSerializationStructure_of_get? {h : EntityHierarchy} {k : Key} {p : List Key}
    {s : Ptree} (hs : h.serializationStructure.get? (p ++ [k]) = some s) :
    h.hasSerializationStructure = true := by
  have hne : h.serializationStructure.children ≠ [] := by
    intro hnil
    obtain ⟨j, q, hq⟩ := List.exists_cons_of_ne_nil (List.append_ne_nil_of_right_ne_nil p
      (List.cons_ne_nil k []))
    rw [hq, LTree.get?_cons, hnil] at hs
    cases hs
  simp [EntityHierarchy.hasSerializationStructure, hne]

/-- When `LoadEntity` on an entity without members returns, lazy loading of its placeholder
`k` agrees with it, from the node below the entity's own, exactly when that entity's node is
the first in the hierarchy with its key and the member's node the first with `k`. -/
theorem lazyLoading_agrees_iff {T D : Type} (P : PtreePaths) (R : EntityRegistry T D)
    (e full : Entity T D) (p : List Key) (k : Key) :
    (∀ (A : Adapter T D Path) (h : EntityHierarchy) (eager : LTree Key (LoadCall Path)),
      Placeholder R h.serializationStructure e p k →
      (EntityDeserializer.loadEntity P A R h).run (e.setMembersMap []) = .ok (some eager) full →
      (LoadsLike ((ISerializableEntity.getAggregatedMember P A R h k).run e) eager full k
          (p ++ [e.key] ++ [k]) ↔
        h.serializationStructure.firstPath e.key = some (p ++ [e.key]) ∧
          h.serializationStructure.firstPath k = some (p ++ [e.key] ++ [k]))) ∧
    (∀ (A : Adapter T D Unit) (w : LoaderWorld) (eager : LTree Key (LoadCall Unit)),
      Placeholder R w.hierarchy.serializationStructure e p k →
      (EntityLoader.loadEntity P A R w).run (e.setMembersMap []) = .ok (some eager) full →
      (LoadsLike ((IPersistableEntity.getAggregatedMember P A R w k).run e) eager full k
          (p ++ [e.key] ++ [k]) ↔
        w.hierarchy.serializationStructure.firstPath e.key = some (p ++ [e.key]) ∧
          w.hierarchy.serializationStructure.firstPath k = some (p ++ [e.key] ++ [k]))) := by
  refine ⟨?_, ?_⟩
  · intro A h eager hp heager
    obtain ⟨s, hs⟩ := hp.node
    obtain ⟨t, ht⟩ := hp.member
    have hload : EntityDeserializer.loadEntity P A R h =
        loadByKey P A R directoryOf h EntityDeserializer.cannotLocate :=
      if_pos (hasSerializationStructure_of_get? hs)
    unfold ISerializableEntity.getAggregatedMember
    rw [hload] at heager ⊢
    exact loadsLazily_iff P A R directoryOf h EntityDeserializer.cannotLocate hp.plain
      hp.distinct hs ht hp.null hp.registered heager
  · intro A w eager hp heager
    obtain ⟨s, hs⟩ := hp.node
    obtain ⟨t, ht⟩ := hp.member
    cases hopen : w.database.isOpen with
    | false =>
      simp only [EntityLoader.loadEntity, hopen] at heager
      cases heager
    | true =>
      have hload : EntityLoader.loadEntity P A R w =
          loadByKey P A R (fun _ _ => ()) w.hierarchy EntityLoader.cannotLocate :=
        if_pos hopen
      unfold IPersistableEntity.getAggregatedMember
      rw [hload] at heager ⊢
      exact loadsLazily_iff P A R (fun _ _ => ()) w.hierarchy EntityLoader.cannotLocate hp.plain
        hp.distinct hs ht hp.null hp.registered heager

/-! ## Two parents with members of one name -/

/-- A node `x` with one property. -/
def nodeX (v : Char) : Ptree := .node [] [(['v'], .node [v] [])]

/-- Roots `a` and `b`, each with a member `x`. -/
def twoOwners : EntityHierarchy :=
  ⟨[], .node [] [(['a'], .node [] [(['x'], nodeX '1')]), (['b'], .node [] [(['x'], nodeX '2')])]⟩

/-- Only `x` is registered. -/
def registryX : EntityRegistry Unit Str :=
  ⟨fun k => if k = ['x'] then some (.mk [] () [] [] []) else none⟩

/-- An entity with a placeholder for `x`. -/
def ownerOfX (key : Key) : Entity Unit Str := .mk key () [] [(['x'], none)] []

theorem twoOwners_placeholder (key : Key) (hkey : key = ['a'] ∨ key = ['b']) :
    Placeholder registryX twoOwners.serializationStructure (ownerOfX key) [] ['x'] where
  plain := by
    have hleaf : ∀ v : Str, PlainTree (.node v []) := by
      intro v
      apply PlainTree.node <;> simp
    have hx : ∀ v, PlainTree (nodeX v) := by
      intro v
      apply PlainTree.node
      · simp [PlainKey]
      · simp [hleaf]
    have howner : ∀ v, PlainTree (.node [] [(['x'], nodeX v)]) := by
      intro v
      apply PlainTree.node
      · simp [PlainKey]
      · simp [hx]
    apply PlainTree.node
    · simp [PlainKey]
    · simp [howner]
  distinct := by
    have howner : ∀ v, (LTree.node [] [(['x'], nodeX v)] : Ptree).Distinct := fun v =>
      LTree.distinct_singleton (LTree.distinct_singleton (LTree.distinct_leaf _) _ _) _ _
    apply LTree.Distinct.node (by decide)
    simp [howner]
  node := by
    rcases hkey with rfl | rfl <;> exact ⟨_, rfl⟩
  member := by
    rcases hkey with rfl | rfl <;> exact ⟨_, rfl⟩
  null := rfl
  registered := rfl

/-- `a`'s own `x` is the first one, so lazy loading finds it. -/
theorem lazyLoading_agrees_iff_sample :
    ∃ eager full,
      (EntityDeserializer.loadEntity boostPaths (propertyAdapter Path) registryX twoOwners).run
        ((ownerOfX ['a']).setMembersMap []) = .ok (some eager) full ∧
      LoadsLike ((ISerializableEntity.getAggregatedMember boostPaths (propertyAdapter Path)
        registryX twoOwners ['x']).run (ownerOfX ['a'])) eager full ['x'] [['a'], ['x']] := by
  refine ⟨_, _, rfl, ?_⟩
  exact ((lazyLoading_agrees_iff boostPaths registryX (ownerOfX ['a']) _ [] ['x']).1
    (propertyAdapter Path) twoOwners _ (twoOwners_placeholder _ (Or.inl rfl)) rfl).mpr
    ⟨rfl, rfl⟩

/-- For `b` lazy loading takes the `x` of `a`. -/
theorem lazyLoading_takes_other_node :
    ∃ eager full,
      (EntityDeserializer.loadEntity boostPaths (propertyAdapter Path) registryX twoOwners).run
        ((ownerOfX ['b']).setMembersMap []) = .ok (some eager) full ∧
      ¬ LoadsLike ((ISerializableEntity.getAggregatedMember boostPaths (propertyAdapter Path)
        registryX twoOwners ['x']).run (ownerOfX ['b'])) eager full ['x'] [['b'], ['x']] := by
  refine ⟨_, _, rfl, ?_⟩
  rintro ⟨m, calls, e', hlazy, heager, _, hpath⟩
  have hlazyPath : calls.data.searchPath = ['a', '.', 'x'] := by
    cases hlazy
    rfl
  rw [hlazyPath] at hpath
  exact absurd hpath (by decide)

end Azulejo
