import Azulejo.Adapters.RoundTrip
import Azulejo.Lib.Runs
import Azulejo.Properties.LoadedCopies

/-!
# Loading an entity that has members

For each child of the entity's node with a registered key, the loaders generate an entity and
aggregate it. They do not look whether the entity has a member under that key, so a placeholder
stops them, and so does a member of an earlier `LoadEntity`, complete or not. `CanLoad` says which
entities are loaded when no `Load` throws; `LoadThrows` follows a call to the `Load` that throws.
-/

namespace Azulejo

open AssocList Stateful Entity Runs

variable {T D C : Type}

/-- The keys of the children that the loop of `LoadWithParentKey` loads, in the order of the
children. -/
def registeredChildren (R : EntityRegistry T D) (children : List (Key × Ptree)) : List Key :=
  (keys children).filter R.hasRegisteredKey

/-- The node of the entity is found, and its children with a registered key are distinct, have a
key, and are not members of the entity; so on for the entities that the registry makes for them. -/
inductive CanLoad (R : EntityRegistry T D) (h : EntityHierarchy) : Str → Entity T D → Prop
  | intro {parentKey : Str} {e : Entity T D} {tree : Ptree} (hkey : e.key ≠ [])
      (hnode : boostPaths.getChildOptional (searchPathOf parentKey e.key)
        h.serializationStructure = some tree)
      (hdistinct : (registeredChildren R tree.children).Nodup)
      (hfree : ∀ k ∈ registeredChildren R tree.children, k ≠ [] ∧ k ∉ keys e.membersMap)
      (hmembers : ∀ k ∈ registeredChildren R tree.children, ∀ m, R.generateEntity k = .ok m →
        CanLoad R h (searchPathOf parentKey e.key) m) :
      CanLoad R h parentKey e

/-- `LoadEntity` gets to the node of the entity, if it has one, and can load from there. -/
def CanLoadByKey (R : EntityRegistry T D) (h : EntityHierarchy) (e : Entity T D) : Prop :=
  e.key ≠ [] ∧ (getKeyPath e.key h.serializationStructure = [] ∨
    CanLoad R h (getParentKeyPath (getKeyPath e.key h.serializationStructure)) e)

/-! ## The loop over the children -/

section Loop

variable {A : Adapter T D C} {R : EntityRegistry T D}
  {loadMember : EStateM Exception (Entity T D) (LTree Key (LoadCall C))}

theorem registeredChildren_cons_of_registered {k : Key} (h : R.hasRegisteredKey k = true)
    (c : Ptree) (cs : List (Key × Ptree)) :
    registeredChildren R ((k, c) :: cs) = k :: registeredChildren R cs :=
  List.filter_cons_of_pos h

theorem registeredChildren_cons_of_unregistered {k : Key} (h : R.hasRegisteredKey k = false)
    (c : Ptree) (cs : List (Key × Ptree)) :
    registeredChildren R ((k, c) :: cs) = registeredChildren R cs :=
  List.filter_cons_of_neg (by rw [h]; exact Bool.false_ne_true)

/-- The loop returns exactly if the registered keys are distinct and free and each member that is
generated can be loaded. -/
theorem loadMembers_returns_iff {cs : List (Key × Ptree)} {e : Entity T D} :
    (∃ calls e', (loadMembers A R loadMember cs).run e = .ok calls e') ↔
      (registeredChildren R cs).Nodup ∧
      (∀ k ∈ registeredChildren R cs, k ≠ [] ∧ k ∉ keys e.membersMap) ∧
      ∀ k ∈ registeredChildren R cs, ∀ m, R.generateEntity k = .ok m →
        ∃ calls m', loadMember.run m = .ok calls m' := by
  induction cs generalizing e with
  | nil => exact ⟨fun _ => ⟨List.nodup_nil, nofun, nofun⟩, fun _ => ⟨[], e, rfl⟩⟩
  | cons p cs ih =>
    obtain ⟨k, c⟩ := p
    cases hreg : R.hasRegisteredKey k with
    | false =>
      rw [loadMembers_unregistered hreg, registeredChildren_cons_of_unregistered hreg, ih]
    | true =>
      rw [registeredChildren_cons_of_registered hreg, List.nodup_cons, List.forall_mem_cons,
        List.forall_mem_cons]
      constructor
      · rintro ⟨calls, e', hrun⟩
        obtain ⟨m, m', first, more, hk, hfree, hgen, hload, hrest, -⟩ :=
          of_loadMembers_registered hreg hrun
        obtain ⟨hnodup, hothers, hloads⟩ := ih.mp ⟨more, e', hrest⟩
        simp only [membersMap_withMember, mem_keys_insertSorted, not_or] at hothers
        refine ⟨⟨fun hmem => (hothers k hmem).2.1 rfl, hnodup⟩, ⟨⟨hk, hfree⟩, fun j hj => ?_⟩,
          fun m₁ hgen₁ => ?_, hloads⟩
        · exact ⟨(hothers j hj).1, (hothers j hj).2.2⟩
        · obtain rfl : m = m₁ := Except.ok.inj (hgen.symm.trans hgen₁)
          exact ⟨first, m', hload⟩
      · rintro ⟨⟨hnew, hnodup⟩, ⟨⟨hk, hfree⟩, hothers⟩, hload, hloads⟩
        obtain ⟨m, hgen⟩ := hasRegisteredKey_iff.mp hreg
        obtain ⟨first, m', hrun⟩ := hload m hgen
        have hothers' : ∀ j ∈ registeredChildren R cs,
            j ≠ [] ∧ j ∉ keys (withMember A.entityClass k m' e).membersMap := by
          intro j hj
          rw [membersMap_withMember, mem_keys_insertSorted, not_or]
          refine ⟨(hothers j hj).1, ?_, (hothers j hj).2⟩
          rintro rfl
          exact hnew hj
        obtain ⟨more, e', hrest⟩ := ih.mpr ⟨hnodup, hothers', hloads⟩
        exact ⟨_, e', loadMembers_registered hreg hk hfree hgen hrun hrest⟩

theorem count_keys_insertSorted {k : Key} {v : Option (Entity T D)}
    {l : List (Key × Option (Entity T D))} (h : k ∉ keys l) (j : Key) :
    (keys (insertSorted k v l)).count j = (k :: keys l).count j :=
  ((insertSorted_perm h v).map Prod.fst).count_eq j

/-- Members under other keys stay. -/
theorem other_of_loadMembers {cs : List (Key × Ptree)} {e e' : Entity T D}
    {calls : List (Key × LTree Key (LoadCall C))}
    (h : (loadMembers A R loadMember cs).run e = .ok calls e') {j : Key}
    (hj : j ∉ registeredChildren R cs) :
    List.lookup j e'.membersMap = List.lookup j e.membersMap ∧
      (keys e'.membersMap).count j = (keys e.membersMap).count j := by
  refine loadMembers_keeps (Q := fun e' =>
    List.lookup j e'.membersMap = List.lookup j e.membersMap ∧
      (keys e'.membersMap).count j = (keys e.membersMap).count j) h ?_ ⟨rfl, rfl⟩
  rintro k hk hreg m e' hfree ⟨hlookup, hcount⟩
  have hjk : j ≠ k := by
    rintro rfl
    exact hj (List.mem_filter.mpr ⟨hk, hreg⟩)
  rw [membersMap_withMember, lookup_insertSorted_ne hjk, count_keys_insertSorted hfree,
    List.count_cons_of_ne (Ne.symm hjk)]
  exact ⟨hlookup, hcount⟩

/-- Each registered child is there once, as what loading made of the entity that the registry
generated for it. -/
theorem loaded_of_loadMembers {cs : List (Key × Ptree)} {e e' : Entity T D}
    {calls : List (Key × LTree Key (LoadCall C))}
    (h : (loadMembers A R loadMember cs).run e = .ok calls e') {k : Key}
    (hk : k ∈ registeredChildren R cs) :
    (keys e'.membersMap).count k = 1 ∧ ∃ m m' first, R.generateEntity k = .ok m ∧
      loadMember.run m = .ok first m' ∧ List.lookup k e'.membersMap = some (some m') := by
  induction cs generalizing e calls with
  | nil => cases hk
  | cons p cs ih =>
    obtain ⟨j, c⟩ := p
    cases hreg : R.hasRegisteredKey j with
    | false =>
      rw [loadMembers_unregistered hreg] at h
      rw [registeredChildren_cons_of_unregistered hreg] at hk
      exact ih h hk
    | true =>
      have hall := loadMembers_returns_iff.mp ⟨calls, e', h⟩
      rw [registeredChildren_cons_of_registered hreg] at hk hall
      obtain ⟨m, m', first, more, -, hfree, hgen, hload, hrest, -⟩ :=
        of_loadMembers_registered hreg h
      rcases List.mem_cons.mp hk with rfl | hk
      · have hnew : k ∉ registeredChildren R cs := (List.nodup_cons.mp hall.1).1
        obtain ⟨hlookup, hcount⟩ := other_of_loadMembers hrest hnew
        rw [membersMap_withMember, lookup_insertSorted_self] at hlookup
        rw [membersMap_withMember, count_keys_insertSorted hfree, List.count_cons_self,
          List.count_eq_zero_of_not_mem hfree] at hcount
        exact ⟨hcount, m, m', first, hgen, hload, hlookup⟩
      · exact ih hrest hk

end Loop

/-! ## The depth of the recursion -/

theorem lookupNames_eq (path : Str) :
    lookupNames path = if (path.splitOn '.').getLast? = some [] then (path.splitOn '.').dropLast
      else path.splitOn '.' := rfl

theorem length_lookupNames_le (path : Str) :
    (lookupNames path).length ≤ (path.splitOn '.').length := by
  rw [lookupNames_eq]
  split
  · rw [List.length_dropLast]
    exact Nat.sub_le _ _
  · exact Nat.le_refl _

/-- A key names something. -/
theorem lookupNames_ne_nil {key : Key} (h : key ≠ []) : lookupNames key ≠ [] := by
  intro hnil
  rw [lookupNames_eq] at hnil
  split at hnil
  · rename_i hlast
    -- only one name, which is empty
    have hsplit : key.splitOn '.' = [[]] := by
      have hconcat := List.dropLast_append_getLast? [] hlast
      rw [hnil] at hconcat
      exact hconcat.symm
    have hkey : ['.'].intercalate (key.splitOn '.') = key := List.intercalate_splitOn '.'
    rw [hsplit] at hkey
    exact h hkey.symm
  · exact List.splitOn_ne_nil '.' key hnil

/-- The node of a member is deeper than that of its owner. -/
theorem length_lookupNames_searchPathOf (parentKey : Str) {key : Key} (h : key ≠ []) :
    (lookupNames parentKey).length + 1 ≤ (lookupNames (searchPathOf parentKey key)).length := by
  unfold searchPathOf
  split
  · rename_i hparent
    rw [hparent]
    exact List.length_pos_of_ne_nil (lookupNames_ne_nil h)
  · have hsplit : (parentKey ++ '.' :: key).splitOn '.' =
        parentKey.splitOn '.' ++ key.splitOn '.' := List.splitOn_append_cons_self parentKey key
    have hlookup : (lookupNames (parentKey ++ '.' :: key)).length =
        (parentKey.splitOn '.').length + (lookupNames key).length := by
      rw [lookupNames_eq, lookupNames_eq, hsplit,
        List.getLast?_append_of_ne_nil _ (List.splitOn_ne_nil '.' key)]
      split
      · rw [List.dropLast_append_of_ne_nil (List.splitOn_ne_nil '.' key), List.length_append]
      · rw [List.length_append]
    have hle := length_lookupNames_le parentKey
    have hpos := List.length_pos_of_ne_nil (lookupNames_ne_nil h)
    omega

/-! ## Loading one entity -/

section Load

variable (A : Adapter T D C) (R : EntityRegistry T D) (target : Path → Str → C)
  (h : EntityHierarchy) (cannotLocate : Str)

/-- The entity was loaded from its node: its data is what its `Load` made of `data`, and it has
exactly one member for each child with a registered key, which was made by the registry and loaded
in turn. -/
inductive Loaded : Str → D → Entity T D → Prop
  | intro {parentKey : Str} {data : D} {e : Entity T D} {tree : Ptree}
      (hnode : boostPaths.getChildOptional (searchPathOf parentKey e.key)
        h.serializationStructure = some tree)
      (hload : (A.load e.type tree (target h.serializationPath
        (searchPathOf parentKey e.key))).run data = .ok () e.data)
      (hone : ∀ k ∈ registeredChildren R tree.children, (keys e.membersMap).count k = 1 ∧
        ∃ m, R.generateEntity k = .ok m ∧ ∃ m', List.lookup k e.membersMap = some (some m') ∧
          m'.key = k ∧ m'.type = m.type)
      (hmembers : ∀ k ∈ registeredChildren R tree.children, ∀ m m', R.generateEntity k = .ok m →
        List.lookup k e.membersMap = some (some m') →
          Loaded (searchPathOf parentKey e.key) m.data m') :
      Loaded parentKey data e

/-- When it returns, the entity is loaded. -/
theorem loaded_of_loadWithParentKey {fuel : Nat} {parentKey : Str} {e e' : Entity T D}
    {calls : LTree Key (LoadCall C)}
    (hrun : (loadWithParentKey boostPaths A R target h cannotLocate fuel parentKey).run e =
      .ok calls e') :
    e'.key = e.key ∧ e'.type = e.type ∧ Loaded A R target h parentKey e.data e' := by
  induction fuel generalizing parentKey e e' calls with
  | zero => cases hrun
  | succ n ih =>
    obtain ⟨_, tree, d, members, ⟨rfl⟩, -, hnode, hload, hmembers, -⟩ :=
      of_loadWithParentKey_ok boostPaths A R target h cannotLocate hrun
    obtain ⟨hkey, htype, hdata⟩ := kept_of_loadMembers hmembers
    have hkey : e'.key = e.key := hkey
    have htype : e'.type = e.type := htype
    have hdata : e'.data = d := hdata
    refine ⟨hkey, htype, .intro (hkey ▸ hnode) ?_ ?_ ?_⟩
    · rw [hkey, htype, hdata]
      exact hload
    · intro k hk
      obtain ⟨hone, m, m', first, hgen, hm, hlookup⟩ := loaded_of_loadMembers hmembers hk
      obtain ⟨hmkey, hmtype, -⟩ := ih hm
      exact ⟨hone, m, hgen, m', hlookup, hmkey.trans (key_of_generateEntity hgen), hmtype⟩
    · intro k hk m₁ m₁' hgen₁ hlookup₁
      obtain ⟨-, m, m', first, hgen, hm, hlookup⟩ := loaded_of_loadMembers hmembers hk
      obtain rfl : m = m₁ := Except.ok.inj (hgen.symm.trans hgen₁)
      obtain rfl : m' = m₁' := Option.some.inj (Option.some.inj (hlookup.symm.trans hlookup₁))
      rw [hkey]
      exact (ih hm).2.2

/-- A call of `Load` throws while the entity is loaded below `parentKey`: its own, or that of a
child, or one below it, which is called when its own `Load` and the children before have
returned. -/
inductive LoadThrows : Str → Entity T D → Prop
  | own {parentKey : Str} {e : Entity T D} {tree : Ptree} {err : Exception} {d : D}
      (hkey : e.key ≠ [])
      (hnode : boostPaths.getChildOptional (searchPathOf parentKey e.key)
        h.serializationStructure = some tree)
      (hthrows : (A.load e.type tree (target h.serializationPath
        (searchPathOf parentKey e.key))).run e.data = .error err d) :
      LoadThrows parentKey e
  | child {parentKey : Str} {e e' m : Entity T D} {tree c : Ptree} {d : D} {k : Key} {fuel : Nat}
      {before after : List (Key × Ptree)} {calls : List (Key × LTree Key (LoadCall C))}
      (hkey : e.key ≠ [])
      (hnode : boostPaths.getChildOptional (searchPathOf parentKey e.key)
        h.serializationStructure = some tree)
      (hload : (A.load e.type tree (target h.serializationPath
        (searchPathOf parentKey e.key))).run e.data = .ok () d)
      (hchildren : tree.children = before ++ (k, c) :: after)
      (hbefore : (loadMembers A R (loadWithParentKey boostPaths A R target h cannotLocate fuel
        (searchPathOf parentKey e.key)) before).run (e.setData d) = .ok calls e')
      (hk : k ≠ []) (hfree : k ∉ keys e'.membersMap) (hgen : R.generateEntity k = .ok m)
      (hthrows : LoadThrows (searchPathOf parentKey e.key) m) :
      LoadThrows parentKey e

/-- A call of `Load` throws in a call of `LoadEntity`. -/
def LoadThrowsByKey (e : Entity T D) : Prop :=
  getKeyPath e.key h.serializationStructure ≠ [] ∧ LoadThrows A R target h cannotLocate
    (getParentKeyPath (getKeyPath e.key h.serializationStructure)) e

variable {A R target h cannotLocate}

theorem not_loadThrows
    (hload : ∀ type node c data, ∃ d, (A.load type node c).run data = .ok () d)
    (parentKey : Str) (e : Entity T D) : ¬ LoadThrows A R target h cannotLocate parentKey e := by
  intro hthrows
  induction hthrows with
  | @own parentKey e tree err d hkey hnode hthrows =>
    obtain ⟨d', hd'⟩ := hload e.type tree (target h.serializationPath
      (searchPathOf parentKey e.key)) e.data
    rw [hd'] at hthrows
    cases hthrows
  | child _ _ _ _ _ _ _ _ _ ih => exact ih

/-- What returns could be loaded. -/
theorem canLoad_of_returns {fuel : Nat} {parentKey : Str} {e : Entity T D}
    (hrun : ∃ calls e', (loadWithParentKey boostPaths A R target h cannotLocate fuel
      parentKey).run e = .ok calls e') : CanLoad R h parentKey e := by
  induction fuel generalizing parentKey e with
  | zero =>
    obtain ⟨calls, e', hrun⟩ := hrun
    cases hrun
  | succ n ih =>
    obtain ⟨calls, e', hrun⟩ := hrun
    obtain ⟨_, tree, d, members, ⟨rfl⟩, hkey, hnode, hload, hmembers, -⟩ :=
      of_loadWithParentKey_ok boostPaths A R target h cannotLocate hrun
    obtain ⟨hdistinct, hfree, hloads⟩ := loadMembers_returns_iff.mp ⟨members, e', hmembers⟩
    exact .intro hkey hnode hdistinct hfree fun k hk m hgen => ih (hloads k hk m hgen)

/-- What returns has called no `Load` that throws. -/
theorem not_returns_of_loadThrows {parentKey : Str} {e : Entity T D}
    (hthrows : LoadThrows A R target h cannotLocate parentKey e) {fuel : Nat}
    {calls : LTree Key (LoadCall C)} {e' : Entity T D} :
    (loadWithParentKey boostPaths A R target h cannotLocate fuel parentKey).run e ≠
      .ok calls e' := by
  induction hthrows generalizing fuel calls e' with
  | own hkey hnode hthrows =>
    intro hrun
    obtain ⟨_, tree, d, members, -, -, hnode', hload, -, -⟩ :=
      of_loadWithParentKey_ok boostPaths A R target h cannotLocate hrun
    obtain rfl := Option.some.inj (hnode.symm.trans hnode')
    rw [hthrows] at hload
    cases hload
  | @child parentKey e e₁ m tree c d k n before after firstCalls hkey hnode hload hchildren hbefore
      hk hfree hgen hthrows ih =>
    intro hrun
    obtain ⟨_, tree', d', members, -, -, hnode', -, hmembers, -⟩ :=
      of_loadWithParentKey_ok boostPaths A R target h cannotLocate hrun
    obtain rfl := Option.some.inj (hnode.symm.trans hnode')
    have hmem : k ∈ registeredChildren R tree.children := by
      refine List.mem_filter.mpr ⟨?_, hasRegisteredKey_iff.mpr ⟨m, hgen⟩⟩
      rw [hchildren]
      exact mem_keys_of_mem (List.mem_append_right before List.mem_cons_self)
    obtain ⟨-, -, hloads⟩ := loadMembers_returns_iff.mp ⟨members, e', hmembers⟩
    obtain ⟨calls', m', hm⟩ := hloads k hmem m hgen
    exact ih hm

/-- When no `Load` throws, each child is loaded, if each would be after those before it. -/
theorem children_return {parentKey : Str} {e : Entity T D} {tree : Ptree} {d : D} {n : Nat}
    (hthrows : ¬ LoadThrows A R target h cannotLocate parentKey e) (hkey : e.key ≠ [])
    (hnode : boostPaths.getChildOptional (searchPathOf parentKey e.key)
      h.serializationStructure = some tree)
    (hload : (A.load e.type tree (target h.serializationPath
      (searchPathOf parentKey e.key))).run e.data = .ok () d)
    (hdistinct : (registeredChildren R tree.children).Nodup)
    (hfree : ∀ k ∈ registeredChildren R tree.children, k ≠ [] ∧ k ∉ keys e.membersMap)
    (hmember : ∀ k ∈ registeredChildren R tree.children, ∀ m, R.generateEntity k = .ok m →
      ¬ LoadThrows A R target h cannotLocate (searchPathOf parentKey e.key) m →
        ∃ calls m', (loadWithParentKey boostPaths A R target h cannotLocate n
          (searchPathOf parentKey e.key)).run m = .ok calls m') :
    ∀ k ∈ registeredChildren R tree.children, ∀ m, R.generateEntity k = .ok m →
      ∃ calls m', (loadWithParentKey boostPaths A R target h cannotLocate n
        (searchPathOf parentKey e.key)).run m = .ok calls m' := by
  rcases forall_or_exists_first (fun p : Key × Ptree => ∀ m, R.generateEntity p.1 = .ok m →
      ∃ calls m', (loadWithParentKey boostPaths A R target h cannotLocate n
        (searchPathOf parentKey e.key)).run m = .ok calls m') tree.children with
    hall | ⟨before, ⟨k, c⟩, after, hchildren, hbefore, hfirst⟩
  · intro k hk
    obtain ⟨p, hp, rfl⟩ := List.mem_map.mp (List.mem_filter.mp hk).1
    exact hall p hp
  · -- the first child that is not loaded: the loop over those before it returns
    exfalso
    push Not at hfirst
    obtain ⟨m, hgen, hfails⟩ := hfirst
    have hreg : R.hasRegisteredKey k = true := hasRegisteredKey_iff.mpr ⟨m, hgen⟩
    have hsplit : registeredChildren R tree.children =
        registeredChildren R before ++ k :: registeredChildren R after := by
      rw [hchildren, registeredChildren, keys_append, List.filter_append]
      exact congrArg _ (registeredChildren_cons_of_registered hreg c after)
    rw [hsplit] at hdistinct hfree hmember
    obtain ⟨hnodup, -, hdisjoint⟩ := List.nodup_append.mp hdistinct
    obtain ⟨members, e', hrun⟩ : ∃ members e', (loadMembers A R (loadWithParentKey boostPaths A R
        target h cannotLocate n (searchPathOf parentKey e.key)) before).run (e.setData d) =
        .ok members e' := by
      refine loadMembers_returns_iff.mpr ⟨hnodup, fun j hj => hfree j (by simp [hj]), ?_⟩
      intro j hj
      obtain ⟨p, hp, rfl⟩ := List.mem_map.mp (List.mem_filter.mp hj).1
      exact hbefore p hp
    have hnew : k ∉ registeredChildren R before := fun hmem =>
      hdisjoint k hmem k List.mem_cons_self rfl
    have hkfree : k ∉ keys e'.membersMap := by
      rw [← List.count_eq_zero, (other_of_loadMembers hrun hnew).2, List.count_eq_zero]
      exact (hfree k (by simp)).2
    obtain ⟨calls, m', hm⟩ := hmember k (by simp) m hgen fun hbelow =>
      hthrows (.child hkey hnode hload hchildren hrun (hfree k (by simp)).1 hkfree hgen hbelow)
    exact hfails calls m' hm

/-- What can be loaded is loaded when no `Load` throws, on as many levels as the hierarchy has
below the parent. -/
theorem returns_of_canLoad {parentKey : Str} {e : Entity T D} (hcan : CanLoad R h parentKey e)
    (hthrows : ¬ LoadThrows A R target h cannotLocate parentKey e) {fuel : Nat}
    (hfuel : h.serializationStructure.height < fuel + (lookupNames parentKey).length) :
    ∃ calls e', (loadWithParentKey boostPaths A R target h cannotLocate fuel parentKey).run e =
      .ok calls e' := by
  induction hcan generalizing fuel with
  | @intro parentKey e tree hkey hnode hdistinct hfree hmembers ih =>
    have hdepth : (lookupNames (searchPathOf parentKey e.key)).length + tree.height ≤
        h.serializationStructure.height := LTree.length_add_height_le hnode
    have hdeeper := length_lookupNames_searchPathOf parentKey hkey
    obtain ⟨n, rfl⟩ : ∃ n, fuel = n + 1 := ⟨fuel - 1, by omega⟩
    obtain ⟨d, hd⟩ : ∃ d, (A.load e.type tree (target h.serializationPath
        (searchPathOf parentKey e.key))).run e.data = .ok () d := by
      cases hload : (A.load e.type tree (target h.serializationPath
          (searchPathOf parentKey e.key))).run e.data with
      | ok u d => exact ⟨d, rfl⟩
      | error err d => exact absurd (.own hkey hnode hload) hthrows
    obtain ⟨members, e', hrun⟩ : ∃ calls e', (loadMembers A R (loadWithParentKey boostPaths A R
        target h cannotLocate n (searchPathOf parentKey e.key)) tree.children).run (e.setData d) =
        .ok calls e' :=
      loadMembers_returns_iff.mpr ⟨hdistinct, hfree, children_return hthrows hkey hnode hd
        hdistinct hfree fun k hk m hgen hbelow => ih k hk m hgen hbelow (by omega)⟩
    exact ⟨_, e', loadWithParentKey_ok boostPaths A R target h cannotLocate hkey hnode hd hrun⟩

/-! ## `LoadEntity` -/

/-- `LoadEntity` returns, and if the entity has a node in the hierarchy, it is loaded from there. -/
def LoadsEachChild (A : Adapter T D C) (R : EntityRegistry T D) (target : Path → Str → C)
    (h : EntityHierarchy)
    (loadEntity : EStateM Exception (Entity T D) (Option (LTree Key (LoadCall C))))
    (e : Entity T D) : Prop :=
  ∃ calls e', loadEntity.run e = .ok calls e' ∧ e'.key = e.key ∧ e'.type = e.type ∧
    (getKeyPath e.key h.serializationStructure ≠ [] → Loaded A R target h
      (getParentKeyPath (getKeyPath e.key h.serializationStructure)) e.data e')

/-- `LoadEntity` completes exactly if the entity can be loaded and no `Load` throws. -/
theorem loadByKey_loadsEachChild_iff {e : Entity T D} :
    LoadsEachChild A R target h (loadByKey boostPaths A R target h cannotLocate) e ↔
      CanLoadByKey R h e ∧ ¬ LoadThrowsByKey A R target h cannotLocate e := by
  unfold LoadsEachChild CanLoadByKey LoadThrowsByKey loadByKey
  rw [bind_ok (EStateM.run_get e)]
  by_cases hkey : e.key = []
  · refine iff_of_false ?_ fun hcan => hcan.1.1 hkey
    rintro ⟨calls, e', hrun, -⟩
    simp only [if_pos hkey] at hrun
    cases hrun
  · simp only [if_neg hkey]
    by_cases hpath : getKeyPath e.key h.serializationStructure = []
    · simp only [if_pos hpath]
      exact iff_of_true ⟨none, e, rfl, rfl, rfl, fun hne => absurd hpath hne⟩
        ⟨⟨hkey, Or.inl hpath⟩, fun hthrows => hthrows.1 hpath⟩
    · simp only [if_neg hpath]
      constructor
      · rintro ⟨calls, e', hrun, -⟩
        obtain ⟨calls', e₁, hrun₁, -⟩ := of_bind_ok hrun
        exact ⟨⟨hkey, Or.inr (canLoad_of_returns ⟨calls', e₁, hrun₁⟩)⟩,
          fun hthrows => not_returns_of_loadThrows hthrows.2 hrun₁⟩
      · rintro ⟨⟨-, hcan⟩, hthrows⟩
        obtain ⟨calls, e', hrun⟩ : ∃ calls e', (loadWithParentKey boostPaths A R target h
            cannotLocate (h.serializationStructure.height + 1)
            (getParentKeyPath (getKeyPath e.key h.serializationStructure))).run e =
            .ok calls e' :=
          returns_of_canLoad (hcan.resolve_left hpath) (fun h => hthrows ⟨hpath, h⟩) (by omega)
        obtain ⟨hsame, htype, hloaded⟩ := loaded_of_loadWithParentKey A R target h cannotLocate hrun
        refine ⟨some calls, e', ?_, hsame, htype, fun _ => hloaded⟩
        rw [bind_ok hrun]
        rfl

/-- Once a member was loaded, the entity cannot be loaded again. -/
theorem not_canLoad_of_loaded {parentKey : Str} {data : D} {e : Entity T D}
    (hloaded : Loaded A R target h parentKey data e) {tree : Ptree}
    (hnode : boostPaths.getChildOptional (searchPathOf parentKey e.key)
      h.serializationStructure = some tree) {k : Key}
    (hk : k ∈ registeredChildren R tree.children) : ¬ CanLoad R h parentKey e := by
  rintro ⟨-, hnode', -, hfree, -⟩
  rw [hnode] at hnode'
  cases hnode'
  obtain ⟨hnode', -, hone, -⟩ := hloaded
  rw [hnode] at hnode'
  cases hnode'
  have hmem : k ∈ keys e.membersMap := by
    apply List.count_pos_iff.mp
    rw [(hone k hk).1]
    exact Nat.one_pos
  exact (hfree k hk).2 hmem

end Load

/-- Whatever members the entity has, of placeholders and of earlier attempts, `LoadEntity` of
either loader, when no `Load` that it calls throws, completes, with one loaded member for each
registered child at every depth, exactly if the children that it is to load are distinct and none of
them is a member yet. -/
theorem repeated_loading_iff (R : EntityRegistry T D) (e : Entity T D) :
    (∀ (A : Adapter T D Path) h,
      ¬ LoadThrowsByKey A R directoryOf h EntityDeserializer.cannotLocate e →
      (LoadsEachChild A R directoryOf h (EntityDeserializer.loadEntity boostPaths A R h) e ↔
        h.hasSerializationStructure = false ∨ CanLoadByKey R h e)) ∧
    ∀ (A : Adapter T D Unit) w, (w.database.isOpen = true →
        ¬ LoadThrowsByKey A R (fun _ _ => ()) w.hierarchy EntityLoader.cannotLocate e) →
      (LoadsEachChild A R (fun _ _ => ()) w.hierarchy (EntityLoader.loadEntity boostPaths A R w) e ↔
        w.database.isOpen = true ∧ CanLoadByKey R w.hierarchy e) := by
  constructor
  · intro A h hthrows
    unfold EntityDeserializer.loadEntity
    cases hstructure : h.hasSerializationStructure with
    | false =>
      have hpath := getKeyPath_of_no_structure hstructure e.key
      exact iff_of_true ⟨none, e, rfl, rfl, rfl, fun hne => absurd hpath hne⟩ (Or.inl rfl)
    | true =>
      simp only [if_true, reduceCtorEq, false_or]
      rw [loadByKey_loadsEachChild_iff, and_iff_left hthrows]
  · intro A w hthrows
    unfold EntityLoader.loadEntity
    cases hopen : w.database.isOpen with
    | false =>
      refine iff_of_false ?_ fun hcan => Bool.false_ne_true hcan.1
      rintro ⟨calls, e', hrun, -⟩
      cases hrun
    | true =>
      simp only [if_true, true_and]
      rw [loadByKey_loadsEachChild_iff, and_iff_left (hthrows hopen)]

theorem partAdapter_not_loadThrows (R : EntityRegistry PartClass Nat) (e : Entity PartClass Nat) :
    ¬ LoadThrowsByKey (partAdapter Path) R directoryOf rootWithMember
      EntityDeserializer.cannotLocate e :=
  fun hthrows => not_loadThrows (fun _ _ _ d => ⟨d, rfl⟩) _ e hthrows.2

/-- `m` and `q` are registered. -/
def registryMQ : EntityRegistry PartClass Nat where
  keyToEntityMap key :=
    if key = "m".toList ∨ key = "q".toList then some (.mk [] .part 8 [] []) else none

/-- A hierarchy in which the member of the root is `q`. -/
def rootWithQ : EntityHierarchy where
  serializationPath := "entities.json".toList
  serializationStructure := .node [] [("r".toList, .node [] [("q".toList, LTree.empty)])]

/-- The root with the placeholder `p`, before and after it was loaded from there. -/
def rootWithPlaceholder : Entity PartClass Nat :=
  .mk "r".toList .part 1 [("p".toList, none)] []
def rootLoadedBefore : Entity PartClass Nat :=
  .mk "r".toList .part 1 [("p".toList, none), ("q".toList, some (.mk "q".toList .part 8 [] []))]
    [("q".toList, .entity)]

theorem canLoad_rootLoadedBefore : CanLoad registryMQ rootWithMember [] rootLoadedBefore := by
  have hnode : boostPaths.getChildOptional "r".toList rootWithMember.serializationStructure =
      some (.node [] [("m".toList, LTree.empty)]) := rfl
  have hmember : boostPaths.getChildOptional "r.m".toList rootWithMember.serializationStructure =
      some LTree.empty := rfl
  refine .intro (by decide) hnode (by decide) (by decide) ?_
  intro k hk m hgen
  obtain ⟨proto, hproto, rfl⟩ := generateEntity_eq_ok.mp hgen
  obtain rfl : k = "m".toList := List.mem_singleton.mp (List.mem_filter.mp hk).1
  cases hproto
  exact .intro (by decide) hmember List.nodup_nil nofun nofun

/-- A placeholder and the member of an earlier load under other keys are no obstacle: `m` is loaded
beside them. -/
theorem repeated_loading_rootLoadedBefore :
    (∃ calls, (EntityDeserializer.loadEntity boostPaths (partAdapter Path) registryMQ
        rootWithQ).run rootWithPlaceholder = .ok calls rootLoadedBefore) ∧
      LoadsEachChild (partAdapter Path) registryMQ directoryOf rootWithMember
        (EntityDeserializer.loadEntity boostPaths (partAdapter Path) registryMQ rootWithMember)
        rootLoadedBefore :=
  ⟨⟨_, rfl⟩, ((repeated_loading_iff registryMQ rootLoadedBefore).1 (partAdapter Path)
    rootWithMember (partAdapter_not_loadThrows _ _)).mpr
      (Or.inr ⟨by decide, Or.inr canLoad_rootLoadedBefore⟩)⟩

/-- A placeholder stops the loader, and so does the member of a load that completed, though no
`Load` throws. -/
theorem loading_not_repeated :
    (∀ e, ¬ LoadThrowsByKey (partAdapter Path) partRegistry directoryOf rootWithMember
        EntityDeserializer.cannotLocate e) ∧
      ¬ LoadsEachChild (partAdapter Path) partRegistry directoryOf rootWithMember
        (EntityDeserializer.loadEntity boostPaths (partAdapter Path) partRegistry rootWithMember)
        lazyRoot ∧
      ∃ calls e', (EntityDeserializer.loadEntity boostPaths (partAdapter Path) partRegistry
          rootWithMember).run emptyRoot = .ok calls e' ∧
        ¬ LoadsEachChild (partAdapter Path) partRegistry directoryOf rootWithMember
          (EntityDeserializer.loadEntity boostPaths (partAdapter Path) partRegistry rootWithMember)
          e' := by
  refine ⟨partAdapter_not_loadThrows partRegistry, ?_, _, _, rfl, ?_⟩
  · rintro ⟨calls, e', hrun, -⟩
    cases hrun
  · rintro ⟨calls, e', hrun, -⟩
    cases hrun

end Azulejo
