import Azulejo.Adapters.Loading
import Azulejo.FilesystemAdapters.EntityAdapters
import Azulejo.DatabaseAdapters.EntityAdapters

/-!
# The first occurrence of a key

`GetKeyPath` returns a dotted path, `GetParentKeyPath` takes its last key off, and
`LoadWithParentKey` puts the key back and looks the path up again. `search_finds_first` follows the
path through the three and through the loading of the members below it.
-/

namespace Azulejo

open AssocList Stateful Entity

variable {T D C : Type}

/-! ## The path found -/

section Search

variable {t : Ptree} {k : Key}

/-- The first node with the key in pre-order, with its path. -/
def firstOccurrence (k : Key) (t : Ptree) : Option (List Key × Ptree) :=
  t.preorder.find? fun q => q.1.getLast? == some k

theorem firstPath_eq_firstOccurrence (k : Key) (t : Ptree) :
    t.firstPath k = (firstOccurrence k t).map Prod.fst :=
  LTree.firstPath_eq_find? k t

theorem of_firstOccurrence {path : List Key} {node : Ptree}
    (h : firstOccurrence k t = some (path, node)) :
    (path, node) ∈ t.preorder ∧ ∃ parent, path = parent ++ [k] := by
  refine ⟨List.mem_of_find?_eq_some h, ?_⟩
  have hlast : path.getLast? = some k := by simpa using List.find?_some h
  obtain ⟨parent, hparent⟩ := List.getLast?_eq_some_iff.mp hlast
  exact ⟨parent, hparent⟩

theorem getKeyPath_of_firstOccurrence (hk : PlainKey k) {path : List Key}
    {node : Ptree} (h : firstOccurrence k t = some (path, node)) :
    getKeyPath k t = dotted path := by
  rw [getKeyPath_eq hk, firstPath_eq_firstOccurrence, h]
  rfl

theorem getKeyPath_ne_nil_iff (hk : PlainKey k) :
    getKeyPath k t ≠ [] ↔ ∃ q ∈ t.preorder, q.1.getLast? = some k := by
  cases hfirst : firstOccurrence k t with
  | none =>
    have hpath : getKeyPath k t = [] := by
      rw [getKeyPath_eq hk, firstPath_eq_firstOccurrence, hfirst]
      rfl
    refine iff_of_false (fun h => h hpath) ?_
    rintro ⟨q, hq, hlast⟩
    exact List.find?_eq_none.mp hfirst q hq (beq_iff_eq.mpr hlast)
  | some found =>
    obtain ⟨path, node⟩ := found
    obtain ⟨hmem, parent, rfl⟩ := of_firstOccurrence hfirst
    refine iff_of_true ?_ ⟨_, hmem, List.getLast?_concat⟩
    rw [getKeyPath_of_firstOccurrence hk hfirst]
    intro hnil
    have hends := endsInKey_dotted parent hk
    rw [hnil, endsInKey_nil hk] at hends
    cases hends

/-- Taking the key off the path and putting it back gives the path again. -/
theorem searchPathOf_getParentKeyPath {parent : List Key} (hparent : ∀ j ∈ parent, PlainKey j)
    (hk : PlainKey k) :
    searchPathOf (getParentKeyPath (dotted (parent ++ [k]))) k = dotted (parent ++ [k]) := by
  rw [getParentKeyPath_dotted hk, searchPathOf_dotted hparent]

/-- A path of a plain tree with distinct siblings resolves. -/
theorem getChildOptional_of_get? (P : PtreePaths) (hplain : PlainTree t) (hdistinct : t.Distinct)
    {path : List Key} {node : Ptree} (hpath : path ≠ []) (hnode : t.get? path = some node) :
    P.getChildOptional (dotted path) t = some node := by
  rw [P.getChildOptional_spec path t hpath (hplain.of_get? hnode).1 (hdistinct.uniqueAlong path),
    hnode]

end Search

/-! ## Loading finds every node it looks for -/

section Load

variable {P : PtreePaths} {A : Adapter T D C} {R : EntityRegistry T D} {target : Path → Str → C}
  {h : EntityHierarchy} {cannotLocate : Str}

/-- What `AggregateMember` throws for an entity. -/
theorem aggregateMember_eq_error {staticType : T} {m e : Entity T D} {err : Exception}
    (herr : e.aggregateMember staticType (some m) = .error err) :
    err = keyNotSet ∨ ∃ key, err = keyInUse key := by
  by_cases hkey : m.key = []
  · have hget : m.getKey = .error keyNotSet := by
      unfold getKey
      rw [if_pos hkey]
      rfl
    simp only [aggregateMember, hget] at herr
    cases herr
    exact Or.inl rfl
  · have hget : m.getKey = .ok m.key := by
      unfold getKey
      rw [if_neg hkey]
      rfl
    cases hlookup : List.lookup m.key e.membersMap with
    | none =>
      have hadded : e.aggregateMember staticType (some m) =
          .ok (withMember staticType m.key m e) :=
        aggregateMember_eq_ok.mpr ⟨hkey, lookup_none.mp hlookup, rfl⟩
      rw [hadded] at herr
      cases herr
    | some pointer =>
      have hthrow : e.aggregateMember staticType (some m) = .error (keyInUse m.key) := by
        simp only [aggregateMember, hget, bind, Except.bind, hlookup]
        rfl
      rw [hthrow] at herr
      cases herr
      exact Or.inr ⟨m.key, rfl⟩

/-- The text of the exception is one that only a failed look-up has. -/
structure OwnText (A : Adapter T D C) (cannotLocate : Str) : Prop where
  ne_keyNotSet : keyNotSet ≠ .runtimeError cannotLocate
  ne_keyInUse : ∀ key, keyInUse key ≠ .runtimeError cannotLocate
  load : ∀ type node directory d d',
    (A.load type node directory).run d ≠ .error (.runtimeError cannotLocate) d'

/-- The loop over the children throws it only when the loading of a member does. -/
theorem loadMembers_ne_error (hown : OwnText A cannotLocate)
    {loadMember : EStateM Exception (Entity T D) (LTree Key (LoadCall C))}
    {cs : List (Key × Ptree)}
    (hmember : ∀ k ∈ keys cs, ∀ m, R.generateEntity k = .ok m → ∀ m',
      loadMember.run m ≠ .error (.runtimeError cannotLocate) m') (e e' : Entity T D) :
    (loadMembers A R loadMember cs).run e ≠ .error (.runtimeError cannotLocate) e' := by
  induction cs generalizing e with
  | nil => exact nofun
  | cons p cs ih =>
    obtain ⟨k, c⟩ := p
    rw [keys_cons, List.forall_mem_cons] at hmember
    cases hreg : R.hasRegisteredKey k with
    | false =>
      rw [loadMembers_unregistered hreg]
      exact ih hmember.2 e
    | true =>
      intro hrun
      unfold loadMembers at hrun
      rw [if_pos hreg] at hrun
      rcases of_bind_error hrun with hadd | ⟨_, e₁, hadd, hrun⟩
      · rw [onEntity_run] at hadd
        obtain ⟨m, hgen⟩ := hasRegisteredKey_iff.mp hreg
        have hbind : (do
            let memberEntity ← R.generateEntity k
            e.aggregateMember A.entityClass (some memberEntity)) =
              e.aggregateMember A.entityClass (some m) := by
          rw [hgen]
          rfl
        rw [hbind] at hadd
        cases hagg : e.aggregateMember A.entityClass (some m) with
        | ok e₁ =>
          rw [hagg] at hadd
          cases hadd
        | error err =>
          rw [hagg] at hadd
          cases hadd
          rcases aggregateMember_eq_error hagg with herr | ⟨key, herr⟩
          · exact hown.ne_keyNotSet herr.symm
          · exact hown.ne_keyInUse key herr.symm
      · obtain ⟨m, hgen, -, hfree, rfl⟩ := aggregateGenerated_eq_ok.mp hadd
        rcases of_bind_error hrun with hload | ⟨_, e₂, -, hrun⟩
        · rw [onMember_withMember hfree] at hload
          cases hm : loadMember.run m with
          | ok calls m' =>
            rw [hm] at hload
            cases hload
          | error err m' =>
            rw [hm] at hload
            cases hload
            exact hmember.1 m hgen m' hm
        · rcases of_bind_error hrun with hrest | ⟨_, e₃, -, hrun⟩
          · exact ih hmember.2 e₂ hrest
          · cases hrun

variable (hplain : PlainTree h.serializationStructure)
  (hdistinct : h.serializationStructure.Distinct)

include hplain hdistinct in
/-- An entity with a node is loaded without a failed look-up, and so are its members. -/
theorem loadWithParentKey_ne_error (hown : OwnText A cannotLocate) {fuel : Nat}
    {parent : List Key} {e : Entity T D} {node : Ptree}
    (hnode : h.serializationStructure.get? (parent ++ [e.key]) = some node) (e' : Entity T D) :
    (loadWithParentKey P A R target h cannotLocate fuel (dotted parent)).run e ≠
      .error (.runtimeError cannotLocate) e' := by
  induction fuel generalizing parent e node e' with
  | zero => exact nofun
  | succ n ih =>
    obtain ⟨hkeys, -⟩ := hplain.of_get? hnode
    have hparent : ∀ k ∈ parent, PlainKey k := fun k hk => hkeys k (List.mem_append_left _ hk)
    have hpath := searchPathOf_dotted hparent e.key
    have hfound : P.getChildOptional (dotted (parent ++ [e.key])) h.serializationStructure =
        some node :=
      getChildOptional_of_get? P hplain hdistinct (by simp) hnode
    have hkey : e.key ≠ [] := (hkeys e.key (by simp)).1
    intro hrun
    unfold loadWithParentKey at hrun
    rw [bind_ok (EStateM.run_get e)] at hrun
    simp only [if_neg hkey, hpath, hfound] at hrun
    rcases of_bind_error hrun with hload | ⟨_, e₁, -, hrun⟩
    · rw [zoom_run] at hload
      split at hload
      · cases hload
      · rename_i err d hd
        cases hload
        exact hown.load _ _ _ _ _ hd
    · rcases of_bind_error hrun with hmembers | ⟨_, e₂, -, hrun⟩
      · refine loadMembers_ne_error hown (fun k hk m hgen m' => ?_) _ _ hmembers
        obtain ⟨proto, -, rfl⟩ := generateEntity_eq_ok.mp hgen
        obtain ⟨child, hchild⟩ := Option.ne_none_iff_exists'.mp (mt lookup_none.mp (not_not.mpr hk))
        exact ih (e := proto.setKey k) ((LTree.get?_concat hnode k).trans hchild) m'
      · cases hrun

/-- `LoadEntity` of a plain key never fails to find a node. -/
theorem loadByKey_ne_error (hplain : PlainTree h.serializationStructure)
    (hdistinct : h.serializationStructure.Distinct) (hown : OwnText A cannotLocate)
    {e : Entity T D} (hk : PlainKey e.key) (e' : Entity T D) :
    (loadByKey P A R target h cannotLocate).run e ≠ .error (.runtimeError cannotLocate) e' := by
  rw [loadByKey_eq P A R target h cannotLocate hk]
  cases hfirst : firstOccurrence e.key h.serializationStructure with
  | none =>
    rw [firstPath_eq_firstOccurrence, hfirst]
    exact nofun
  | some found =>
    obtain ⟨path, node⟩ := found
    obtain ⟨hmem, parent, rfl⟩ := of_firstOccurrence hfirst
    have hnode := ((hdistinct.mem_preorder).mp hmem).2
    rw [firstPath_eq_firstOccurrence, hfirst]
    simp only [Option.map_some, List.dropLast_concat]
    intro hrun
    rcases of_bind_error hrun with hload | ⟨_, e₁, -, hrun⟩
    · exact loadWithParentKey_ne_error hplain hdistinct hown hnode e' hload
    · cases hrun

end Load

/-! ## The texts of the two adapters -/

theorem keyInUse_ne {text : Str} (h : text.take 8 ≠ "Cannot a".toList) (key : Key) :
    keyInUse key ≠ .runtimeError text := by
  intro heq
  injection heq with htext
  apply h
  rw [← htext]
  rfl

/-- The texts that `AggregateMember` and `GetKey` throw are others. -/
theorem ownText_deserializer {A : Adapter T D Path}
    (hload : ∀ type node directory d d', (A.load type node directory).run d ≠
      .error (.runtimeError EntityDeserializer.cannotLocate) d') :
    OwnText A EntityDeserializer.cannotLocate where
  ne_keyNotSet := by decide
  ne_keyInUse := keyInUse_ne (by decide)
  load := hload

theorem ownText_loader {A : Adapter T D Unit}
    (hload : ∀ type node directory d d', (A.load type node directory).run d ≠
      .error (.runtimeError EntityLoader.cannotLocate) d') :
    OwnText A EntityLoader.cannotLocate where
  ne_keyNotSet := by decide
  ne_keyInUse := keyInUse_ne (by decide)
  load := hload

/-- On a hierarchy with plain keys and distinct siblings the search for a key finds a path exactly
when a node has the key; the path is the one of the first such node in pre-order, it resolves to
that node, and loading from it never fails to find a node. -/
theorem search_finds_first {t : Ptree} (hplain : PlainTree t) (hdistinct : t.Distinct) {k : Key}
    (hk : PlainKey k) :
    (getKeyPath k t ≠ [] ↔ ∃ q ∈ t.preorder, q.1.getLast? = some k) ∧
      (∀ path node, firstOccurrence k t = some (path, node) →
        getKeyPath k t = dotted path ∧ t.get? path = some node ∧
        ∀ P : PtreePaths, P.getChildOptional
          (searchPathOf (getParentKeyPath (getKeyPath k t)) k) t = some node) ∧
      ∀ (P : PtreePaths) (R : EntityRegistry T D) (e e' : Entity T D), e.key = k →
        (∀ (A : Adapter T D Path) (serializationPath : Path),
          (∀ type node directory d d', (A.load type node directory).run d ≠
            .error (.runtimeError EntityDeserializer.cannotLocate) d') →
          (EntityDeserializer.loadEntity P A R ⟨serializationPath, t⟩).run e ≠
            .error (.runtimeError EntityDeserializer.cannotLocate) e') ∧
        ∀ (A : Adapter T D Unit) (w : LoaderWorld), w.hierarchy.serializationStructure = t →
          (∀ type node directory d d', (A.load type node directory).run d ≠
            .error (.runtimeError EntityLoader.cannotLocate) d') →
          (EntityLoader.loadEntity P A R w).run e ≠
            .error (.runtimeError EntityLoader.cannotLocate) e' := by
  refine ⟨getKeyPath_ne_nil_iff hk, fun path node hfirst => ?_,
    fun P R e e' hkey => ⟨fun A serializationPath hload => ?_, fun A w ht hload => ?_⟩⟩
  · obtain ⟨hmem, parent, rfl⟩ := of_firstOccurrence hfirst
    have hnode := ((hdistinct.mem_preorder).mp hmem).2
    have hparent : ∀ j ∈ parent, PlainKey j :=
      fun j hj => (hplain.of_get? hnode).1 j (List.mem_append_left _ hj)
    have hpath := getKeyPath_of_firstOccurrence hk hfirst
    refine ⟨hpath, hnode, fun P => ?_⟩
    rw [hpath, searchPathOf_getParentKeyPath hparent hk]
    exact getChildOptional_of_get? P hplain hdistinct (by simp) hnode
  · subst hkey
    unfold EntityDeserializer.loadEntity
    split
    · exact loadByKey_ne_error hplain hdistinct (ownText_deserializer hload) hk e'
    · exact nofun
  · subst hkey ht
    unfold EntityLoader.loadEntity
    split
    · exact loadByKey_ne_error hplain hdistinct (ownText_loader hload) hk e'
    · intro hclosed
      injection hclosed with htext _
      exact absurd htext (by decide)

/-- A root with a member, and a later root with the member's key. -/
def keyTwice : Ptree :=
  .node [] [("a".toList, .node [] [("b".toList, LTree.empty)]), ("b".toList, LTree.empty)]

theorem plainTree_leaf : PlainTree LTree.empty := .node nofun nofun

theorem plainTree_keyTwice : PlainTree keyTwice := by
  refine .node (by decide) ?_
  rw [List.forall_mem_cons, List.forall_mem_singleton]
  refine ⟨.node (by decide) ?_, plainTree_leaf⟩
  rw [List.forall_mem_singleton]
  exact plainTree_leaf

theorem distinct_keyTwice : keyTwice.Distinct := by
  refine .node (by decide) ?_
  rw [List.forall_mem_cons, List.forall_mem_singleton]
  exact ⟨LTree.distinct_singleton (LTree.distinct_leaf []) [] _, LTree.distinct_leaf []⟩

/-- An adapter whose classes save and load nothing. -/
def silentAdapter (C : Type) : Adapter Unit Unit C where
  implements _ := true
  save _ _ _ := pure ()
  load _ _ _ := pure ()
  entityClass := ()

theorem search_finds_first_keyTwice :
    getKeyPath "b".toList keyTwice = dotted ["a".toList, "b".toList] ∧
      keyTwice.get? ["a".toList, "b".toList] = some LTree.empty ∧
      ∀ e', (EntityDeserializer.loadEntity boostPaths (silentAdapter Path) ⟨fun _ => none⟩
          ⟨"entities.json".toList, keyTwice⟩).run (.mk "b".toList () () [] []) ≠
        .error (.runtimeError EntityDeserializer.cannotLocate) e' := by
  obtain ⟨-, hfirst, hload⟩ :=
    search_finds_first (T := Unit) (D := Unit) plainTree_keyTwice distinct_keyTwice
      (k := "b".toList) (by decide)
  obtain ⟨hpath, hnode, -⟩ := hfirst ["a".toList, "b".toList] LTree.empty rfl
  exact ⟨hpath, hnode, fun e' => (hload boostPaths ⟨fun _ => none⟩ (.mk "b".toList () () [] []) e'
    rfl).1 (silentAdapter Path) "entities.json".toList nofun⟩

end Azulejo
