import Azulejo.Properties.FirstOccurrence
import Azulejo.Properties.SaveEffect
import Azulejo.Lib.Runs

/-!
# Loading a root of a hierarchy with several roots

A save of a root sets its top-level node and nothing else, so the hierarchy holds under every
root key what was saved last. `LoadEntity` looks for the first node of its key in pre-order,
wherever it stands: it reads the top-level node exactly when no root before it has a node of that
key below it.
-/

namespace Azulejo

open AssocList Stateful

variable {T D C W α β : Type}

/-! ## Paths below a root -/

/-- The path leads to the root `k` or below it. -/
def Under (k : Key) (path : Str) : Prop := path = k ∨ ∃ more, path = k ++ '.' :: more

variable {k : Key}

theorem Under.splitOn (hk : PlainKey k) {path : Str} (h : Under k path) :
    ∃ names, path.splitOn '.' = k :: names := by
  rcases h with rfl | ⟨more, rfl⟩
  · exact ⟨[], List.splitOn_eq_singleton hk.2⟩
  · exact ⟨more.splitOn '.', List.splitOn_append_cons_self_of_not_mem hk.2 more⟩

theorem Under.ne_nil (hk : PlainKey k) {path : Str} (h : Under k path) : path ≠ [] := by
  rcases h with rfl | ⟨more, rfl⟩
  · exact hk.1
  · exact List.append_ne_nil_of_left_ne_nil hk.1 _

theorem Under.searchPathOf (hk : PlainKey k) {path : Str} (h : Under k path) (key : Key) :
    Under k (searchPathOf path key) := by
  unfold Azulejo.searchPathOf
  rw [if_neg (h.ne_nil hk)]
  rcases h with rfl | ⟨more, rfl⟩
  · exact Or.inr ⟨key, rfl⟩
  · exact Or.inr ⟨more ++ '.' :: key, by simp⟩

/-! ## Programs on one top-level node -/

/-- The tree of the state with the top-level node `k` set to `node`. -/
def SaveState.setRoot (k : Key) (s : SaveState W) (node : Ptree) : SaveState W :=
  s.setTree (s.tree.set [k] node)

/-- On a hierarchy at `path`, the program does no more than run `y` on the top-level node `k`. -/
def WorksOn (k : Key) (path : Path) (x : EStateM Exception (SaveState W) α)
    (y : EStateM Exception Ptree α) : Prop :=
  ∀ s, s.hierarchy.serializationPath = path → ∀ node,
    x.run (s.setRoot k node) = (zoom (fun _ => node) (SaveState.setRoot k) y).run s

theorem worksOn_pure (path : Path) (a : α) :
    WorksOn k path (pure a : EStateM Exception (SaveState W) α) (pure a) := fun _ _ _ => rfl

theorem worksOn_throw (path : Path) (err : Exception) :
    WorksOn k path (throw err : EStateM Exception (SaveState W) α) (throw err) := fun _ _ _ => rfl

/-- A program that works on the root's node goes on with one that does. -/
theorem run_bind_setRoot {path : Path} {x : EStateM Exception (SaveState W) α}
    {y : EStateM Exception Ptree α} {f : α → EStateM Exception (SaveState W) β}
    {g : α → EStateM Exception Ptree β} {s s' : SaveState W} {node : Ptree}
    (hs : s.hierarchy.serializationPath = path)
    (hx : x.run s' = (zoom (fun _ => node) (SaveState.setRoot k) y).run s)
    (hf : ∀ a, WorksOn k path (f a) (g a)) :
    (x >>= f).run s' = (zoom (fun _ => node) (SaveState.setRoot k) (y >>= g)).run s := by
  rw [zoom_run] at hx ⊢
  cases hy : y.run node with
  | error err node' =>
    rw [hy] at hx
    rw [bind_error hx, bind_error hy]
  | ok a node' =>
    rw [hy] at hx
    rw [bind_ok hx, bind_ok hy, hf a s hs node', zoom_run]

theorem WorksOn.bind {path : Path} {x : EStateM Exception (SaveState W) α}
    {y : EStateM Exception Ptree α} {f : α → EStateM Exception (SaveState W) β}
    {g : α → EStateM Exception Ptree β} (hx : WorksOn k path x y)
    (hf : ∀ a, WorksOn k path (f a) (g a)) : WorksOn k path (x >>= f) (y >>= g) :=
  fun s hs node => run_bind_setRoot hs (hx s hs node) hf

/-- `put_child` at or below the root. -/
theorem worksOn_onNewChild (path : Path) {searchPath : Str} {names : List Key}
    (hnames : searchPath.splitOn '.' = k :: names) (x : EStateM Exception Ptree Unit) :
    WorksOn k path (onNewChild boostPaths searchPath x : EStateM Exception (SaveState W) Unit)
      (zoom (fun _ => LTree.empty) (fun node child => node.set names child) x) := by
  intro s hs node
  have hput : ∀ child, (s.setRoot k node).setTree
      (boostPaths.putChild searchPath child (s.setRoot k node).tree) =
        s.setRoot k (node.set names child) := by
    intro child
    show s.setTree (((s.tree.set [k] node).set (searchPath.splitOn '.')) child) = _
    rw [hnames]
    exact congrArg s.setTree (LTree.set_set_append [k] names s.tree node child)
  unfold onNewChild
  rw [zoom_run, zoom_run, zoom_run]
  cases x.run LTree.empty with
  | ok u child => simp only [hput]
  | error err child => simp only [hput]

section Save

variable {A : Adapter T D C} {target : Path → Str → C}

mutual
/-- Below the root, saving is a program on the root's node. -/
theorem exists_worksOn_save (hk : PlainKey k) (path : Path) : ∀ (e : Entity T D) {parentKey : Str},
    Under k parentKey → ∃ y, WorksOn k path (saveWithParentKey boostPaths A target
      (pure () : EStateM Exception (SaveState W) Unit) e parentKey) y
  | .mk key type data membersMap _, parentKey, hunder => by
    by_cases hkey : key = []
    · simp only [saveWithParentKey, if_pos hkey]
      exact ⟨_, worksOn_throw path _⟩
    have hsearch := hunder.searchPathOf hk key
    obtain ⟨names, hnames⟩ := hsearch.splitOn hk
    obtain ⟨members, hmembers⟩ := exists_worksOn_saveMembers hk path membersMap hsearch
    refine ⟨zoom (fun _ => LTree.empty) (fun node child => node.set names child)
      (A.save type data (target path (searchPathOf parentKey key))) >>= fun _ => members >>=
        fun calls => pure (.node ⟨searchPathOf parentKey key,
          target path (searchPathOf parentKey key)⟩ calls), ?_⟩
    intro s hs node
    simp only [saveWithParentKey, if_neg hkey, if_neg (hunder.ne_nil hk)]
    rw [bind_ok (EStateM.run_get _)]
    have hpath : (s.setRoot k node).hierarchy.serializationPath = path := hs
    rw [hpath]
    exact ((worksOn_onNewChild path hnames _).bind fun _ => hmembers.bind fun calls =>
      worksOn_pure path _) s hs node
theorem exists_worksOn_saveMembers (hk : PlainKey k) (path : Path) :
    ∀ (members : List (Key × Option (Entity T D))) {searchPath : Str}, Under k searchPath →
      ∃ y, WorksOn k path (saveMembers boostPaths A target
        (pure () : EStateM Exception (SaveState W) Unit) members searchPath) y
  | [], _, _ => by
    unfold saveMembers
    exact ⟨_, worksOn_pure path []⟩
  | (_, none) :: members, _, hunder => by
    unfold saveMembers
    exact exists_worksOn_saveMembers hk path members hunder
  | (key, some member) :: members, searchPath, hunder => by
    obtain ⟨y, hy⟩ := exists_worksOn_save hk path member hunder
    obtain ⟨z, hz⟩ := exists_worksOn_saveMembers hk path members hunder
    unfold saveMembers
    by_cases himplements : A.implements member.type = true
    · rw [if_pos himplements]
      exact ⟨_, hy.bind fun calls => hz.bind fun more => worksOn_pure path ((key, calls) :: more)⟩
    · rw [if_neg himplements]
      exact ⟨z, hz⟩
end

/-- Saving a root, but for the end, makes a node and puts it under the root's key. -/
theorem exists_run_saveRoot (path : Path) {e : Entity T D} (he : PlainKey e.key) :
    ∃ y, ∀ s : SaveState W, s.hierarchy.serializationPath = path →
      (saveWithParentKey boostPaths A target (pure ()) e []).run s =
        (zoom (fun _ => LTree.empty) (SaveState.setRoot e.key) y).run s := by
  obtain ⟨key, type, data, membersMap, ctors⟩ := e
  obtain ⟨members, hmembers⟩ := @exists_worksOn_saveMembers T D C W key A target he path membersMap
    key (Or.inl rfl)
  refine ⟨A.save type data (target path key) >>= fun _ => members >>=
    fun calls => pure (.node ⟨key, target path key⟩ calls), fun s hs => ?_⟩
  have hkey : key ≠ [] := he.1
  have hsearch : searchPathOf [] key = key := rfl
  simp only [saveWithParentKey, if_neg hkey, if_true, hsearch]
  rw [bind_ok (EStateM.run_get _), hs]
  have hput : (onNewChild boostPaths key (A.save type data (target path key))).run s =
      (zoom (fun _ => LTree.empty) (SaveState.setRoot key)
        (A.save type data (target path key))).run s := by
    have hsplit : key.splitOn '.' = [key] := List.splitOn_eq_singleton he.2
    simp only [onNewChild, boostPaths, hsplit]
    rfl
  exact run_bind_setRoot hs hput fun _ => hmembers.bind fun calls => worksOn_pure path _

/-- Saving a root sets its top-level node, whatever the hierarchy holds and whether the call
returns or throws. -/
theorem exists_node_saveRoot {finish : EStateM Exception (SaveState W) Unit}
    (hfinish : Keeps SaveState.tree finish) (path : Path) {e : Entity T D} (he : PlainKey e.key) :
    ∃ node, ∀ s : SaveState W, s.hierarchy.serializationPath = path →
      (finalState ((saveWithParentKey boostPaths A target finish e []).run s)).tree =
        s.tree.set [e.key] node := by
  obtain ⟨y, hy⟩ := @exists_run_saveRoot T D C W A target path e he
  refine ⟨finalState (y.run LTree.empty), fun s hs => ?_⟩
  have hrun := hy s hs
  rw [zoom_run] at hrun
  rw [saveWithParentKey_finish]
  cases hnode : y.run LTree.empty with
  | error err node =>
    rw [hnode] at hrun
    rw [bind_error hrun]
    rfl
  | ok calls node =>
    rw [hnode] at hrun
    rw [bind_ok hrun]
    exact (hfinish.bind fun _ => keeps_pure _ _) (s.setRoot e.key node)

end Save

/-! ## Calls that save roots -/

/-- A call that saves a root: the entity, and where and in which world it is made. -/
structure RootCall (T D W : Type) where
  serializationPath : Path
  world : W
  entity : Entity T D

section Runs

variable (save : Entity T D → EStateM Exception (SaveState W) (LTree Key (SaveCall C)))

/-- The hierarchy after the call, whether it returned or threw. -/
def treeAfter (t : Ptree) (c : RootCall T D W) : Ptree :=
  (finalState ((save c.entity).run ⟨⟨c.serializationPath, t⟩, c.world⟩)).tree

/-- What the call saves under its root's key: the node it leaves there in an empty hierarchy. -/
def savedRoot (c : RootCall T D W) : Ptree :=
  ((treeAfter save LTree.empty c).get? [c.entity.key]).getD LTree.empty

/-- The calls that meet `stores` set their root and nothing else, and the others do not change
the hierarchy. -/
structure SavesRoots (stores : RootCall T D W → Prop) : Prop where
  sets : ∀ c, PlainKey c.entity.key → stores c →
    ∃ node, ∀ t, treeAfter save t c = t.set [c.entity.key] node
  keeps : ∀ c, ¬ stores c → ∀ t, treeAfter save t c = t

variable {save} {stores : RootCall T D W → Prop} (hsave : SavesRoots save stores)

include hsave

theorem SavesRoots.get?_treeAfter {c : RootCall T D W} (hplain : PlainKey c.entity.key)
    (hstores : stores c) (t : Ptree) :
    (treeAfter save t c).get? [c.entity.key] = some (savedRoot save c) := by
  obtain ⟨node, hnode⟩ := hsave.sets c hplain hstores
  unfold savedRoot
  rw [hnode, hnode, LTree.get?_set_self, LTree.get?_set_self]
  rfl

/-- A call leaves every root alone that it does not store. -/
theorem SavesRoots.lookup_treeAfter {c : RootCall T D W} (hplain : PlainKey c.entity.key)
    (hother : stores c → c.entity.key ≠ k) (t : Ptree) :
    List.lookup k (treeAfter save t c).children = List.lookup k t.children := by
  by_cases hstores : stores c
  · obtain ⟨node, hnode⟩ := hsave.sets c hplain hstores
    rw [hnode, LTree.set_singleton, LTree.children_node,
      lookup_setIn_ne (Ne.symm (hother hstores))]
  · rw [hsave.keeps c hstores]

theorem SavesRoots.lookup_run {calls : List (RootCall T D W)}
    (hplain : ∀ c ∈ calls, PlainKey c.entity.key)
    (hother : ∀ c ∈ calls, stores c → c.entity.key ≠ k) (t : Ptree) :
    List.lookup k (Runs.run (treeAfter save) t calls).children = List.lookup k t.children := by
  induction calls generalizing t with
  | nil => rfl
  | cons c calls ih =>
    rw [List.forall_mem_cons] at hplain hother
    rw [Runs.run, ih hplain.2 hother.2, hsave.lookup_treeAfter hplain.1 hother.1]

/-- After any calls, a root is as the last call that stored it left it. -/
theorem SavesRoots.lookup_run_last {before after : List (RootCall T D W)} {last : RootCall T D W}
    (hplain : ∀ c ∈ before ++ last :: after, PlainKey c.entity.key) (hlast : stores last)
    (hother : ∀ c ∈ after, stores c → c.entity.key ≠ last.entity.key) :
    (Runs.run (treeAfter save) LTree.empty (before ++ last :: after)).get? [last.entity.key] =
      some (savedRoot save last) := by
  have hplast := hplain last (by simp)
  have hafter := hsave.lookup_run (fun c hc => hplain c (by simp [hc])) hother
    (treeAfter save (Runs.run (treeAfter save) LTree.empty before) last)
  have hnode := hsave.get?_treeAfter hplast hlast (Runs.run (treeAfter save) LTree.empty before)
  rw [Runs.run_append, Runs.run, ← hnode, LTree.get?_cons, LTree.get?_cons, hafter]

/-- The roots are keys of entities. -/
theorem SavesRoots.roots_plain {calls : List (RootCall T D W)}
    (hplain : ∀ c ∈ calls, PlainKey c.entity.key) :
    ∀ j ∈ (Runs.run (treeAfter save) LTree.empty calls).labels, PlainKey j := by
  have hmeets : Runs.Meets (treeAfter save) (fun _ c => PlainKey c.entity.key) LTree.empty calls :=
    Runs.meets_of_forall (fun _ c hc => hplain c hc) LTree.empty
  refine Runs.invariant (fun t => ∀ j ∈ t.labels, PlainKey j) ?_ (by simp [LTree.labels, LTree.empty])
    hmeets
  intro t c ht hc j hj
  by_cases hstores : stores c
  · obtain ⟨node, hnode⟩ := hsave.sets c hc hstores
    rw [hnode, LTree.set_singleton] at hj
    by_cases hkey : j = c.entity.key
    · rw [hkey]
      exact hc
    · refine ht j (List.count_pos_iff.mp ?_)
      have hcount := count_setIn_ne hkey node t.children
      exact lt_of_lt_of_eq (List.count_pos_iff.mpr hj) hcount
  · rw [hsave.keeps c hstores] at hj
    exact ht j hj

end Runs

theorem serialize_savesRoots (A : Adapter T D Path) (J : Json) :
    SavesRoots (EntitySerializer.serialize boostPaths A J) (fun _ => True) where
  sets c hplain _ := by
    obtain ⟨node, hnode⟩ := @exists_node_saveRoot T D Path JsonFiles A directoryOf
      (EntitySerializer.writeHierarchy J) (onWorld_keeps_tree _) c.serializationPath c.entity hplain
    refine ⟨node, fun t => ?_⟩
    unfold treeAfter EntitySerializer.serialize
    rw [if_neg hplain.1]
    exact hnode ⟨⟨c.serializationPath, t⟩, c.world⟩ rfl
  keeps _ h := absurd trivial h

/-- The persister has its database open. -/
def DatabaseOpen (c : RootCall T D PersisterWorld) : Prop := c.world.database.isOpen = true

theorem persist_savesRoots (A : Adapter T D Unit) (J : Json) (E : SqliteEngine)
    (crc : List UInt8 → UInt32) :
    SavesRoots (EntityPersister.persist boostPaths A J E crc) (DatabaseOpen (T := T) (D := D)) where
  sets c hplain hopen := by
    obtain ⟨node, hnode⟩ := @exists_node_saveRoot T D Unit PersisterWorld A (fun _ _ => ())
      (EntityPersister.sendHierarchy J E crc) (onWorld_keeps_tree _) c.serializationPath c.entity
      hplain
    refine ⟨node, fun t => ?_⟩
    unfold DatabaseOpen at hopen
    unfold treeAfter EntityPersister.persist
    rw [bind_ok (EStateM.run_get _)]
    simp only [hopen, Bool.not_true, Bool.false_eq_true, if_false, if_neg hplain.1]
    exact hnode ⟨⟨c.serializationPath, t⟩, c.world⟩ rfl
  keeps c hclosed t := by
    unfold DatabaseOpen at hclosed
    unfold treeAfter EntityPersister.persist
    rw [bind_ok (EStateM.run_get _)]
    simp only [hclosed, Bool.not_false, if_true]
    rfl

/-! ## Where `LoadEntity` goes -/

/-- No root that stands before `k` has a node with the key `k` below it. -/
def FirstAtTop (k : Key) (t : Ptree) : Prop :=
  ∀ root ∈ t.children.takeWhile (fun root => root.1 != k),
    ∀ q ∈ root.2.preorder, q.1.getLast? ≠ some k

section Load

variable (target : Path → Str → C) (h : EntityHierarchy) (cannotLocate : Str)

/-- `LoadEntity` on an entity with the key `k`, of any classes, goes on as `LoadWithParentKey`
does for the root `k`. -/
def LoadsTop (k : Key) : Prop :=
  ∀ (T D : Type) (A : Adapter T D C) (R : EntityRegistry T D) (e : Entity T D), e.key = k →
    (loadByKey boostPaths A R target h cannotLocate).run e =
      ((do
        let calls ← loadWithParentKey boostPaths A R target h cannotLocate
          (h.serializationStructure.height + 1) []
        pure (some calls) :
          EStateM Exception (Entity T D) (Option (LTree Key (LoadCall C))))).run e

theorem getChildOptional_root (hk : PlainKey k) (t : Ptree) :
    boostPaths.getChildOptional k t = t.get? [k] := by
  have hnames : lookupNames (dotted [k]) = [k] :=
    lookupNames_dotted (List.cons_ne_nil k []) (by simpa using hk)
  rw [dotted_singleton] at hnames
  show t.get? (lookupNames k) = _
  rw [hnames]

/-- An entity without classes of its own loads the node found and no members. -/
theorem loadWithParentKey_silent {node : Ptree} (hk : PlainKey k)
    (hnode : h.serializationStructure.get? [k] = some node) (fuel : Nat) :
    (loadWithParentKey boostPaths (silentAdapter C) ⟨fun _ => none⟩ target h cannotLocate (fuel + 1)
      []).run (.mk k () () [] []) =
      .ok (.node ⟨k, node, target h.serializationPath k⟩ []) (.mk k () () [] []) := by
  have hmembers : loadMembers (silentAdapter C) ⟨fun _ => none⟩ (loadWithParentKey boostPaths
      (silentAdapter C) ⟨fun _ => none⟩ target h cannotLocate fuel k) (node.children ++ []) =
      pure [] := loadMembers_append_unregistered fun _ _ => rfl
  rw [List.append_nil] at hmembers
  have hfound : boostPaths.getChildOptional k h.serializationStructure = some node :=
    (getChildOptional_root hk _).trans hnode
  refine loadWithParentKey_ok boostPaths (silentAdapter C) _ target h cannotLocate
    (e := (.mk k () () [] [] : Entity Unit Unit)) hk.1 hfound rfl ?_
  have hsearch : searchPathOf [] (Entity.mk k () () [] [] : Entity Unit Unit).key = k := rfl
  rw [hsearch, hmembers]
  rfl

/-- A node below a root is looked for at a longer path than a root. -/
theorem searchPathOf_below_ne {j : Key} (hj : PlainKey j) (q : List Key) :
    searchPathOf (dotted (j :: q)) k ≠ k := by
  have hparent : dotted (j :: q) ≠ [] := by
    cases q with
    | nil => simpa using hj.1
    | cons i q =>
      rw [dotted_cons (List.cons_ne_nil i q)]
      exact List.append_ne_nil_of_left_ne_nil hj.1 _
  rw [searchPathOf, if_neg hparent]
  intro hpath
  have hlength := congrArg List.length hpath
  rw [List.length_append, List.length_cons] at hlength
  omega

/-- A search that stops below another root does not load what the root `k` would. -/
theorem not_loadsTop_of_below (hk : PlainKey k) {node : Ptree}
    (hnode : h.serializationStructure.get? [k] = some node) {j : Key} (hj : PlainKey j)
    {q : List Key} (hfirst : h.serializationStructure.firstPath k = some (j :: (q ++ [k]))) :
    ¬ LoadsTop target h cannotLocate k := by
  intro hload
  have hrun := hload Unit Unit (silentAdapter C) ⟨fun _ => none⟩ (.mk k () () [] []) rfl
  rw [loadByKey_eq boostPaths _ _ target _ cannotLocate
    (e := (.mk k () () [] [] : Entity Unit Unit)) hk] at hrun
  have hkey : (Entity.mk k () () [] [] : Entity Unit Unit).key = k := rfl
  rw [hkey, hfirst] at hrun
  have htop := loadWithParentKey_silent target h cannotLocate hk hnode
    h.serializationStructure.height
  simp only at hrun
  rw [bind_ok htop] at hrun
  obtain ⟨calls, e', hbelow, hcalls⟩ := of_bind_ok hrun
  cases hcalls
  -- a call that returned has read its node at the path it looked for
  obtain ⟨n, tree, d', members, -, -, -, -, -, hread⟩ :=
    of_loadWithParentKey_ok boostPaths _ _ target _ cannotLocate hbelow
  have hlast : (j :: (q ++ [k])).dropLast = j :: q := by
    rw [← List.cons_append, List.dropLast_concat]
  rw [hlast] at hread
  have hpath : k = searchPathOf (dotted (j :: q)) k :=
    congrArg (fun calls => (LTree.data calls).searchPath) hread
  exact searchPathOf_below_ne hj q hpath.symm

theorem loadsTop_iff (hk : PlainKey k) (hroots : ∀ j ∈ h.serializationStructure.labels, PlainKey j)
    {node : Ptree} (hnode : h.serializationStructure.get? [k] = some node) :
    LoadsTop target h cannotLocate k ↔ FirstAtTop k h.serializationStructure := by
  obtain ⟨path, t⟩ := h
  obtain ⟨d, cs⟩ := t
  have hmem : k ∈ keys cs := by
    rw [LTree.get?_cons, Option.bind_eq_some_iff] at hnode
    obtain ⟨root, hroot, _⟩ := hnode
    exact lookup_some_mem_keys hroot
  rcases LTree.firstPathIn_cases hmem with ⟨hfirst, hnone⟩ | ⟨root, hroot, p, hp, hfirst⟩
  · -- the search stops at the root
    refine iff_of_true (fun T D A R e hkey => ?_)
      (fun root hroot => LTree.firstPath_eq_none.mp (hnone root hroot))
    subst hkey
    have hsearch : (LTree.node d cs : Ptree).firstPath e.key = some [e.key] := hfirst
    rw [loadByKey_eq boostPaths A R target _ cannotLocate hk, hsearch]
    rfl
  · -- it stops below a root that stands before
    refine iff_of_false ?_ (fun htop => ?_)
    · obtain ⟨q, rfl⟩ := LTree.firstPath_eq_concat hp
      have hroot' : PlainKey root.1 :=
        hroots root.1 (mem_keys_of_mem ((List.takeWhile_prefix _).subset hroot))
      exact not_loadsTop_of_below target _ cannotLocate hk hnode hroot' hfirst
    · rw [LTree.firstPath_eq_none.mpr (htop root hroot)] at hp
      cases hp

end Load

/-! ## Both adapters -/

variable {T D : Type}

/-- The deserializer loads the root `k` of the hierarchy, which holds `node`. -/
structure DeserializesRoot (k : Key) (node : Ptree) (h : EntityHierarchy) : Prop where
  stored : h.serializationStructure.get? [k] = some node
  loads : ∀ (T D : Type) (A : Adapter T D Path) (R : EntityRegistry T D) (e : Entity T D),
    e.key = k → (EntityDeserializer.loadEntity boostPaths A R h).run e =
      ((do
        let calls ← EntityDeserializer.loadWithParentKey boostPaths A R h
          (h.serializationStructure.height + 1) []
        pure (some calls) :
          EStateM Exception (Entity T D) (Option (LTree Key (LoadCall Path))))).run e

/-- The loader, with its database open, loads the root `k` of the hierarchy, which holds
`node`. -/
structure LoadsRoot (k : Key) (node : Ptree) (h : EntityHierarchy) : Prop where
  stored : h.serializationStructure.get? [k] = some node
  loads : ∀ (T D : Type) (A : Adapter T D Unit) (R : EntityRegistry T D) (w : LoaderWorld)
    (e : Entity T D), w.hierarchy = h → w.database.isOpen = true → e.key = k →
      (EntityLoader.loadEntity boostPaths A R w).run e =
      ((do
        let calls ← EntityLoader.loadWithParentKey boostPaths A R h
          (h.serializationStructure.height + 1) []
        pure (some calls) :
          EStateM Exception (Entity T D) (Option (LTree Key (LoadCall Unit))))).run e

theorem deserializesRoot_iff {h : EntityHierarchy} {node : Ptree} (hk : PlainKey k)
    (hroots : ∀ j ∈ h.serializationStructure.labels, PlainKey j)
    (hnode : h.serializationStructure.get? [k] = some node) :
    DeserializesRoot k node h ↔ FirstAtTop k h.serializationStructure := by
  have hstructure : h.hasSerializationStructure = true := by
    have hchildren : h.serializationStructure.children ≠ [] := by
      intro hnil
      rw [LTree.get?_cons, hnil] at hnode
      cases hnode
    simp [EntityHierarchy.hasSerializationStructure, hchildren]
  rw [← loadsTop_iff directoryOf h EntityDeserializer.cannotLocate hk hroots hnode]
  constructor
  · intro hloads T D A R e hkey
    have hload := hloads.loads T D A R e hkey
    rw [EntityDeserializer.loadEntity, if_pos hstructure] at hload
    exact hload
  · intro htop
    refine ⟨hnode, fun T D A R e hkey => ?_⟩
    rw [EntityDeserializer.loadEntity, if_pos hstructure]
    exact htop T D A R e hkey

theorem loadsRoot_iff {h : EntityHierarchy} {node : Ptree} (hk : PlainKey k)
    (hroots : ∀ j ∈ h.serializationStructure.labels, PlainKey j)
    (hnode : h.serializationStructure.get? [k] = some node) :
    LoadsRoot k node h ↔ FirstAtTop k h.serializationStructure := by
  rw [← loadsTop_iff (fun _ _ => ()) h EntityLoader.cannotLocate hk hroots hnode]
  constructor
  · intro hloads T D A R e hkey
    have hload := hloads.loads T D A R
      ⟨⟨fun _ => none, []⟩, Sqlite.new, fun _ => none, ⟨some ⟨none, 0⟩, []⟩, h⟩ e rfl rfl hkey
    rw [EntityLoader.loadEntity, if_pos (by rfl)] at hload
    exact hload
  · intro htop
    refine ⟨hnode, fun T D A R w e hw hopen hkey => ?_⟩
    subst hw
    rw [EntityLoader.loadEntity, if_pos hopen]
    exact htop T D A R e hkey

/-- **Loading a root loads that root as long as its key is not found earlier.** After any
sequence of `Serialize` calls, or of `Persist` calls, on entities with plain keys into one
hierarchy, a root holds what the last call for it saved; and `LoadEntity` of its key reads this
node exactly when no root that stands before it has a node with that key below it. -/
theorem loading_reads_root_iff (T D : Type) :
    (∀ (A : Adapter T D Path) (J : Json) (before after : List (RootCall T D JsonFiles))
      (last : RootCall T D JsonFiles) (serializationPath : Path),
      (∀ c ∈ before ++ last :: after, PlainKey c.entity.key) →
      (∀ c ∈ after, c.entity.key ≠ last.entity.key) →
      let save := EntitySerializer.serialize boostPaths A J
      let t := Runs.run (treeAfter save) LTree.empty (before ++ last :: after)
      DeserializesRoot last.entity.key (savedRoot save last) ⟨serializationPath, t⟩ ↔
        FirstAtTop last.entity.key t) ∧
    (∀ (A : Adapter T D Unit) (J : Json) (E : SqliteEngine) (crc : List UInt8 → UInt32)
      (before after : List (RootCall T D PersisterWorld)) (last : RootCall T D PersisterWorld)
      (serializationPath : Path),
      (∀ c ∈ before ++ last :: after, PlainKey c.entity.key) → DatabaseOpen last →
      (∀ c ∈ after, DatabaseOpen c → c.entity.key ≠ last.entity.key) →
      let save := EntityPersister.persist boostPaths A J E crc
      let t := Runs.run (treeAfter save) LTree.empty (before ++ last :: after)
      LoadsRoot last.entity.key (savedRoot save last) ⟨serializationPath, t⟩ ↔
        FirstAtTop last.entity.key t) := by
  refine ⟨?_, ?_⟩
  · intro A J before after last serializationPath hplain hother save t
    have hsave := serialize_savesRoots (T := T) (D := D) A J
    exact deserializesRoot_iff (hplain last (by simp)) (hsave.roots_plain hplain)
      (hsave.lookup_run_last hplain trivial fun c hc _ => hother c hc)
  · intro A J E crc before after last serializationPath hplain hlast hother save t
    have hsave := persist_savesRoots (T := T) (D := D) A J E crc
    exact loadsRoot_iff (hplain last (by simp)) (hsave.roots_plain hplain)
      (hsave.lookup_run_last hplain hlast hother)

/-! ## Two roots, one with a member of the other's key -/

/-- The root `b`, and a root `a` with a member `b`, saved in some world. -/
def rootB : RootCall Unit Unit JsonFiles :=
  ⟨[], ⟨fun _ => none, fun _ => false⟩, .mk ['b'] () () [] []⟩

def rootAWithB : RootCall Unit Unit JsonFiles :=
  ⟨[], ⟨fun _ => none, fun _ => false⟩,
    .mk ['a'] () () [(['b'], some (.mk ['b'] () () [] []))] []⟩

/-- Saving into the hierarchy of an object without a JSON path. -/
def silentSave : Entity Unit Unit →
    EStateM Exception (SaveState JsonFiles) (LTree Key (SaveCall Path)) :=
  EntitySerializer.serialize boostPaths (silentAdapter Path) (Json.ofText LTree.empty [])

theorem run_rootB_rootAWithB :
    Runs.run (treeAfter silentSave) LTree.empty [rootB, rootAWithB] =
      .node [] [(['b'], LTree.empty), (['a'], .node [] [(['b'], LTree.empty)])] := rfl

theorem run_rootAWithB_rootB :
    Runs.run (treeAfter silentSave) LTree.empty [rootAWithB, rootB] =
      .node [] [(['a'], .node [] [(['b'], LTree.empty)]), (['b'], LTree.empty)] := rfl

/-- Saved before `a`, the root `b` is found. -/
theorem loading_reads_root_iff_sample :
    DeserializesRoot ['b'] (savedRoot silentSave rootB)
      ⟨[], Runs.run (treeAfter silentSave) LTree.empty [rootB, rootAWithB]⟩ := by
  have hiff := (loading_reads_root_iff Unit Unit).1 (silentAdapter Path) (Json.ofText LTree.empty [])
    [] [rootAWithB] rootB [] (by decide) (by decide)
  have htop : FirstAtTop ['b'] (Runs.run (treeAfter silentSave) LTree.empty [rootB, rootAWithB]) := by
    rw [run_rootB_rootAWithB]
    intro root hroot
    cases hroot
  exact hiff.mpr htop

/-- Saved after `a`, it is not: the member of `a` is found first. -/
theorem root_found_below_other :
    ¬ DeserializesRoot ['b'] (savedRoot silentSave rootB)
      ⟨[], Runs.run (treeAfter silentSave) LTree.empty [rootAWithB, rootB]⟩ := by
  rw [run_rootAWithB_rootB]
  intro hloads
  have htop := (deserializesRoot_iff (by decide) (by decide) hloads.stored).mp hloads
  exact htop (['a'], .node [] [(['b'], LTree.empty)]) List.mem_cons_self ([['b']], LTree.empty)
    List.mem_cons_self rfl

end Azulejo
