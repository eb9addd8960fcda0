import Azulejo.Entities.Entity
import Azulejo.Entities.EntityHierarchy

/-!
# Saving and loading an entity tree

The filesystem and the database adapters walk entity trees in the same way. They differ in
the interface an entity must implement, in the second argument of `Save` and `Load` (a
directory or a database), and in where the hierarchy goes at the end. `Adapter` collects
the first two; the last is the `finish` argument of `saveWithParentKey`.

`Save` and `Load` belong to classes outside the library. `Save` works on the node it is
given through a reference, so it is a program on that node; `Load` reads its node and
changes the data of its entity. Both may throw. The calls made are returned as a tree that
follows the recursion: at each node the call for one entity, below it those for its members;
the calls are made in pre-order.
-/

namespace Azulejo

open Stateful

/-- What an adapter uses of the entity classes. -/
structure Adapter (T D C : Type) where
  /-- The dynamic types that implement the adapter's interface. -/
  implements : T → Bool
  /-- `Save(tree, target)` of a class. -/
  save : T → D → C → EStateM Exception Ptree Unit
  /-- `Load(tree, target)` of a class. -/
  load : T → Ptree → C → EStateM Exception D Unit
  /-- The class `Entity` itself. -/
  entityClass : T

/-- A call of `Save`: where the node stands, and the second argument. -/
structure SaveCall (C : Type) where
  searchPath : Str
  target : C

/-- A call of `Load`: where the node stands, the node, and the second argument. -/
structure LoadCall (C : Type) where
  searchPath : Str
  node : Ptree
  target : C

/-- The call of `Save` with the place and the argument of a call of `Load`. -/
def LoadCall.saveCall {C : Type} (call : LoadCall C) : SaveCall C :=
  ⟨call.searchPath, call.target⟩

/-- The hierarchy an adapter saves into, and the files or databases it writes to. -/
structure SaveState (W : Type) where
  hierarchy : EntityHierarchy
  world : W

namespace SaveState

variable {W : Type}

def tree (s : SaveState W) : Ptree := s.hierarchy.serializationStructure

def setTree (s : SaveState W) (t : Ptree) : SaveState W :=
  { s with hierarchy := { s.hierarchy with serializationStructure := t } }

@[simp] theorem tree_setTree (s : SaveState W) (t : Ptree) : (s.setTree t).tree = t := rfl

@[simp] theorem setTree_setTree (s : SaveState W) (t u : Ptree) :
    (s.setTree t).setTree u = s.setTree u := rfl

@[simp] theorem setTree_tree (s : SaveState W) : s.setTree s.tree = s := rfl

@[simp] theorem setTree_serializationPath (s : SaveState W) (t : Ptree) :
    (s.setTree t).hierarchy.serializationPath = s.hierarchy.serializationPath := rfl

end SaveState

/-! ## Saving -/

section Save

variable {T D C W : Type} (P : PtreePaths) (A : Adapter T D C) (target : Path → Str → C)
  (finish : EStateM Exception (SaveState W) Unit)

/-- `tree = put_child(path, ptree())` and a program working on the node `tree` refers to. -/
def onNewChild (path : Str) (x : EStateM Exception Ptree Unit) :
    EStateM Exception (SaveState W) Unit :=
  zoom (fun _ => LTree.empty) (fun s node => s.setTree (P.putChild path node s.tree)) x

mutual
/-- `SerializeWithParentKey` and `PersistWithParentKey`. `finish` is what is done with the
whole hierarchy when there is no parent key. -/
def saveWithParentKey : Entity T D → Str →
    EStateM Exception (SaveState W) (LTree Key (SaveCall C))
  | .mk key type data membersMap _, parentKey => do
    if key = [] then throw Entity.keyNotSet
    let searchPath := searchPathOf parentKey key
    let s ← get
    let directory := target s.hierarchy.serializationPath searchPath
    onNewChild P searchPath (A.save type data directory)
    let calls ← saveMembers membersMap searchPath
    if parentKey = [] then finish
    pure (.node ⟨searchPath, directory⟩ calls)
/-- The loop over `GetAggregatedMemberKeys` of the adapter's interface: the members in key
order, without null pointers and without members of other types. -/
def saveMembers : List (Key × Option (Entity T D)) → Str →
    EStateM Exception (SaveState W) (List (Key × LTree Key (SaveCall C)))
  | [], _ => pure []
  | (_, none) :: members, searchPath => saveMembers members searchPath
  | (key, some member) :: members, searchPath =>
    if A.implements member.type then do
      let calls ← saveWithParentKey member searchPath
      let more ← saveMembers members searchPath
      pure ((key, calls) :: more)
    else saveMembers members searchPath
end

/-! ### The end of the traversal -/

theorem searchPathOf_ne_nil {parentKey : Str} (key : Str) (h : parentKey ≠ [] ∨ key ≠ []) :
    searchPathOf parentKey key ≠ [] := by
  unfold searchPathOf
  split
  · rename_i hparent
    exact h.resolve_left (fun hne => hne hparent)
  · exact List.append_ne_nil_of_right_ne_nil _ (List.cons_ne_nil _ _)

mutual
/-- Below a root, `finish` is not used. -/
theorem saveWithParentKey_below (finish' : EStateM Exception (SaveState W) Unit) :
    ∀ (e : Entity T D) {parentKey : Str}, parentKey ≠ [] →
      saveWithParentKey P A target finish e parentKey =
        saveWithParentKey P A target finish' e parentKey
  | .mk key _ _ membersMap _, _, h => by
    have hpath := searchPathOf_ne_nil key (Or.inl h)
    simp only [saveWithParentKey, saveMembers_below finish' membersMap hpath, if_neg h]
theorem saveMembers_below (finish' : EStateM Exception (SaveState W) Unit) :
    ∀ (members : List (Key × Option (Entity T D))) {searchPath : Str}, searchPath ≠ [] →
      saveMembers P A target finish members searchPath =
        saveMembers P A target finish' members searchPath
  | [], _, _ => by simp only [saveMembers]
  | (_, none) :: members, _, h => by
    simp only [saveMembers, saveMembers_below finish' members h]
  | (_, some member) :: members, _, h => by
    simp only [saveMembers, saveMembers_below finish' members h,
      saveWithParentKey_below finish' member h]
end

/-- At a root the traversal is followed by `finish`. -/
theorem saveWithParentKey_finish (e : Entity T D) :
    saveWithParentKey P A target finish e [] = (do
      let calls ← saveWithParentKey P A target (pure ()) e []
      finish
      pure calls) := by
  cases e with
  | mk key type data membersMap ctors =>
    by_cases hkey : key = []
    · simp only [saveWithParentKey, if_pos hkey]
      rfl
    · have hpath : searchPathOf [] key ≠ [] := searchPathOf_ne_nil key (Or.inr hkey)
      have hmembers := saveMembers_below P A target finish (pure ()) membersMap hpath
      simp only [saveWithParentKey, if_neg hkey, hmembers, if_true, bind_assoc, pure_bind]

variable {P A target finish}

theorem onNewChild_keeps_world (path : Str) (x : EStateM Exception Ptree Unit) :
    Keeps SaveState.world (onNewChild P path x : EStateM Exception (SaveState W) Unit) := by
  intro s
  rw [onNewChild, zoom_run]
  cases x.run LTree.empty <;> rfl

mutual
/-- The traversal itself works on the hierarchy. -/
theorem saveWithParentKey_keeps_world (hfinish : Keeps SaveState.world finish) :
    ∀ (e : Entity T D) (parentKey : Str),
      Keeps SaveState.world (saveWithParentKey P A target finish e parentKey)
  | .mk key type data membersMap _, parentKey => by
    by_cases hkey : key = []
    · simp only [saveWithParentKey, if_pos hkey]
      exact fun _ => rfl
    · simp only [saveWithParentKey, if_neg hkey]
      refine (keeps_get _).bind fun s => (onNewChild_keeps_world _ _).bind fun _ => ?_
      refine (saveMembers_keeps_world hfinish membersMap _).bind fun calls => ?_
      by_cases hparent : parentKey = []
      · simp only [if_pos hparent]
        exact hfinish.bind fun _ => keeps_pure _ _
      · simp only [if_neg hparent]
        exact keeps_pure _ _
theorem saveMembers_keeps_world (hfinish : Keeps SaveState.world finish) :
    ∀ (members : List (Key × Option (Entity T D))) (searchPath : Str),
      Keeps SaveState.world (saveMembers P A target finish members searchPath)
  | [], _ => by
    unfold saveMembers
    exact keeps_pure _ _
  | (_, none) :: members, searchPath => by
    unfold saveMembers
    exact saveMembers_keeps_world hfinish members searchPath
  | (_, some member) :: members, searchPath => by
    unfold saveMembers
    split
    · refine (saveWithParentKey_keeps_world hfinish member searchPath).bind fun calls => ?_
      refine (saveMembers_keeps_world hfinish members searchPath).bind fun more => ?_
      exact keeps_pure _ _
    · exact saveMembers_keeps_world hfinish members searchPath
end

end Save

/-! ## Finding a key in the hierarchy -/

/-- The test on the path returned for a child: the part after the last `.` is the key. -/
def endsInKey (returnedKey : Str) (key : Key) : Bool :=
  match SeparatedWords.findLastOf '.' returnedKey with
  | none => returnedKey == key
  | some pos => returnedKey.drop (pos + 1) == key

mutual
/-- `GetKeyPath`: the dotted path of the first node with the key, or the empty string. -/
def getKeyPath (key : Key) : Ptree → Str
  | .node _ children => getKeyPathIn key children
def getKeyPathIn (key : Key) : List (Key × Ptree) → Str
  | [] => []
  | (nodeKey, node) :: children =>
    if nodeKey == key then nodeKey
    else
      let returnedKey := getKeyPath key node
      if endsInKey returnedKey key then nodeKey ++ '.' :: returnedKey
      else getKeyPathIn key children
end

/-- A hierarchy without a structure has no node for a key. -/
theorem getKeyPath_of_no_structure {h : EntityHierarchy}
    (hstructure : h.hasSerializationStructure = false) (key : Key) :
    getKeyPath key h.serializationStructure = [] := by
  have hchildren : h.serializationStructure.children = [] := by
    simp only [EntityHierarchy.hasSerializationStructure, Bool.or_eq_false_iff,
      Bool.not_eq_false', List.isEmpty_iff] at hstructure
    exact hstructure.2
  cases htree : h.serializationStructure with
  | node d children =>
    rw [htree] at hchildren
    obtain rfl : children = [] := hchildren
    rw [getKeyPath, getKeyPathIn]

/-- `GetParentKeyPath`. -/
def getParentKeyPath (keyPath : Str) : Str :=
  match SeparatedWords.findLastOf '.' keyPath with
  | none => []
  | some pos => keyPath.take pos

/-! ## Loading -/

section Load

variable {T D C : Type} (P : PtreePaths) (A : Adapter T D C) (R : EntityRegistry T D)
  (target : Path → Str → C) (h : EntityHierarchy) (cannotLocate : Str)

/-- Run a program on the member under `key`, which is changed in place. -/
def onMember {α : Type} (key : Key) (x : EStateM Exception (Entity T D) α) :
    EStateM Exception (Entity T D) α := fun e =>
  match List.lookup key e.membersMap with
  | some (some m) =>
    (zoom (fun _ => m)
      (fun e m' => e.setMembersMap (AssocList.setIn key (some m') e.membersMap)) x).run e
  | _ => .error (.runtimeError ("Could not find entity using key=".toList ++ key ++
      " because this key is not in use.".toList)) e

/-- A step on the entity that throws without changing it. -/
def onEntity (f : Entity T D → Except Exception (Entity T D)) :
    EStateM Exception (Entity T D) Unit := fun e =>
  match f e with
  | .ok e' => .ok () e'
  | .error err => .error err e

/-- The loop over the children of the entity's node: each child with a registered key
becomes a member, which `loadMember` then loads. -/
def loadMembers (loadMember : EStateM Exception (Entity T D) (LTree Key (LoadCall C))) :
    List (Key × Ptree) → EStateM Exception (Entity T D) (List (Key × LTree Key (LoadCall C)))
  | [] => pure []
  | (key, _) :: children =>
    if R.hasRegisteredKey key then do
      onEntity fun e => do
        let memberEntity ← R.generateEntity key
        e.aggregateMember A.entityClass (some memberEntity)
      let calls ← onMember key loadMember
      let more ← loadMembers loadMember children
      pure ((key, calls) :: more)
    else loadMembers loadMember children

/-- `LoadWithParentKey`. Every level of the recursion addresses a node one level deeper in
the hierarchy, so the height of the hierarchy bounds its depth; the first argument counts
the levels left. `cannotLocate` is the adapter's own text for a missing node. -/
def loadWithParentKey : Nat → Str → EStateM Exception (Entity T D) (LTree Key (LoadCall C))
  | 0, _ => throw .nontermination
  | fuel + 1, parentKey => do
    let e ← get
    if e.key = [] then throw Entity.keyNotSet
    let searchPath := searchPathOf parentKey e.key
    match P.getChildOptional searchPath h.serializationStructure with
    | none => throw (.runtimeError cannotLocate)
    | some tree => do
      let directory := target h.serializationPath searchPath
      zoom Entity.data Entity.setData (A.load e.type tree directory)
      let calls ← loadMembers A R (loadWithParentKey fuel searchPath) tree.children
      pure (.node ⟨searchPath, tree, directory⟩ calls)

/-- `LoadEntity`, when there is a hierarchy to load from: nothing is loaded when no node has
the entity's key. -/
def loadByKey : EStateM Exception (Entity T D) (Option (LTree Key (LoadCall C))) := do
  let e ← get
  if e.key = [] then throw Entity.keyNotSet
  let keyPath := getKeyPath e.key h.serializationStructure
  if keyPath = [] then pure none
  else do
    let calls ← loadWithParentKey P A R target h cannotLocate
      (h.serializationStructure.height + 1) (getParentKeyPath keyPath)
    pure (some calls)

/-- `GetAggregatedMember` of the adapters' interfaces: a null pointer under a registered key
is loaded now. `loadEntity` is `LoadEntity` of the adapter. -/
def getAggregatedMember
    (loadEntity : EStateM Exception (Entity T D) (Option (LTree Key (LoadCall C)))) (key : Key) :
    EStateM Exception (Entity T D) (Option (Entity T D) × Option (LTree Key (LoadCall C))) :=
  fun e =>
  match List.lookup key e.membersMap with
  | none => .error (.runtimeError ("Could not find entity using key=".toList ++ key ++
      " because this key is not in use.".toList)) e
  | some (some m) => .ok (some m, none) e
  | some none =>
    if R.hasRegisteredKey key then
      match R.generateEntity key with
      | .error err => .error err e
      | .ok entity =>
        match loadEntity.run entity with
        | .error err _ => .error err e
        | .ok calls entity' =>
          .ok (some entity', calls)
            (e.setMembersMap (AssocList.setIn key (some entity') e.membersMap))
    else .ok (none, none) e

end Load

end Azulejo
