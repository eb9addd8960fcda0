import Azulejo.Adapters.Loading
import Azulejo.Entities.Copy
import Azulejo.FilesystemAdapters.EntityAdapters
import Azulejo.DatabaseAdapters.EntityAdapters

/-!
# Copying loaded entities

The loaders aggregate what they load as members of the class `Entity`, and lazy loading puts a
member in the place of a null pointer without registering a constructor. `LoadsTyped` and
`LazyTyped` say which entities can be copied without loss after they were loaded.
-/

namespace Azulejo

open AssocList Stateful Entity

variable {T D C : Type}

/-! ## The loop over the children -/

section Loop

variable {A : Adapter T D C} {R : EntityRegistry T D}
  {loadMember : EStateM Exception (Entity T D) (LTree Key (LoadCall C))}

/-- The constructors after the loop: those there were, and that of `Entity` for each member that is
added under a key without one. -/
def constructorAfter (A : Adapter T D C) (R : EntityRegistry T D) (e : Entity T D)
    (children : List (Key × Ptree)) (key : Key) : Option T :=
  (e.constructorOf key).or
    (if key ∈ keys children ∧ R.hasRegisteredKey key = true then some A.entityClass else none)

theorem constructorOf_loadMembers {cs : List (Key × Ptree)} {e e' : Entity T D}
    {calls : List (Key × LTree Key (LoadCall C))}
    (h : (loadMembers A R loadMember cs).run e = .ok calls e') (key : Key) :
    e'.constructorOf key = constructorAfter A R e cs key := by
  induction cs generalizing e calls with
  | nil =>
    cases h
    simp [constructorAfter]
  | cons p cs ih =>
    obtain ⟨k, c⟩ := p
    cases hreg : R.hasRegisteredKey k with
    | false =>
      rw [loadMembers_unregistered hreg] at h
      rw [ih h, constructorAfter, constructorAfter]
      have hiff : key ∈ keys ((k, c) :: cs) ∧ R.hasRegisteredKey key = true ↔
          key ∈ keys cs ∧ R.hasRegisteredKey key = true := by
        refine and_congr_left fun hkey => ?_
        rw [keys_cons, List.mem_cons, or_iff_right]
        rintro rfl
        rw [hreg] at hkey
        cases hkey
      simp only [hiff]
    | true =>
      obtain ⟨m, m', first, more, -, -, -, -, hrest, -⟩ := of_loadMembers_registered hreg h
      rw [ih hrest, constructorAfter, constructorAfter, constructorOf_withMember, Option.or_assoc]
      by_cases hkey : key = k
      · subst hkey
        simp only [hreg, keys_cons, List.mem_cons_self, if_true, and_self]
        rfl
      · simp only [hkey, keys_cons, List.mem_cons, false_or, if_false, Option.none_or]

/-- The members there were, and the ones the loop has added. `Q` is what makes a member, as the
registry generates it, one that can be copied after it was loaded. -/
theorem membersTyped_loadMembers {Q : Entity T D → Prop}
    (hQ : ∀ m calls m', loadMember.run m = .ok calls m' →
      m'.key = m.key ∧ m'.type = m.type ∧ (m'.Typed ↔ Q m))
    {cs : List (Key × Ptree)} {e e' : Entity T D}
    {calls : List (Key × LTree Key (LoadCall C))}
    (h : (loadMembers A R loadMember cs).run e = .ok calls e') (constructor : Key → Option T) :
    MembersTyped constructor e'.membersMap ↔ MembersTyped constructor e.membersMap ∧
      ∀ k ∈ keys cs, ∀ m, R.generateEntity k = .ok m →
        constructor k = some m.type ∧ Q m := by
  induction cs generalizing e calls with
  | nil =>
    cases h
    simp
  | cons p cs ih =>
    obtain ⟨k, c⟩ := p
    rw [keys_cons, List.forall_mem_cons]
    cases hreg : R.hasRegisteredKey k with
    | false =>
      rw [loadMembers_unregistered hreg] at h
      rw [ih h]
      refine and_congr_right fun _ => (and_iff_right ?_).symm
      exact fun m hgen => absurd hgen (generateEntity_of_unregistered hreg m)
    | true =>
      obtain ⟨m, m', first, more, hk, hfree, hgen, hload, hrest, -⟩ :=
        of_loadMembers_registered hreg h
      obtain ⟨hkey, htype, htyped⟩ := hQ m first m' hload
      have hmk : m'.key = k := hkey.trans (key_of_generateEntity hgen)
      rw [ih hrest, membersMap_withMember, membersTyped_iff, membersTyped_iff, ← and_assoc]
      refine and_congr_left fun _ => ?_
      have hmem : ∀ q, q ∈ insertSorted k (some m') e.membersMap ↔ q ∈ (k, some m') :: e.membersMap :=
        fun q => (insertSorted_perm hfree (some m')).mem_iff
      simp only [hmem, List.forall_mem_cons]
      rw [and_comm]
      refine and_congr_right fun _ => ?_
      constructor
      · rintro ⟨m'', ⟨rfl⟩, -, hconstructor, hm''⟩ m₁ hgen₁
        rw [hgen] at hgen₁
        cases hgen₁
        rw [hmk, htype] at hconstructor
        exact ⟨hconstructor, htyped.mp hm''⟩
      · intro hall
        obtain ⟨hconstructor, hq⟩ := hall m hgen
        exact ⟨m', rfl, by rw [hmk]; exact hk, by rw [hmk, htype]; exact hconstructor,
          htyped.mpr hq⟩

end Loop

/-! ## Loading one entity -/

section Load

variable (P : PtreePaths) (A : Adapter T D C) (R : EntityRegistry T D)
  (target : Path → Str → C) (h : EntityHierarchy) (cannotLocate : Str)

/-- Loading the entity below `parentKey` makes one that can be copied. The members it has must be
there with constructors of their own types, and for each member that is loaded there must be such a
constructor before it is; so on for the members of what the registry generates. -/
def LoadsTyped : Nat → Str → Entity T D → Prop
  | 0, _, _ => True
  | fuel + 1, parentKey, e =>
    ∀ tree, P.getChildOptional (searchPathOf parentKey e.key) h.serializationStructure = some tree →
      MembersTyped (constructorAfter A R e tree.children) e.membersMap ∧
      ∀ k ∈ keys tree.children, ∀ m, R.generateEntity k = .ok m →
        constructorAfter A R e tree.children k = some m.type ∧
          LoadsTyped fuel (searchPathOf parentKey e.key) m

theorem typed_of_loadWithParentKey {fuel : Nat} {parentKey : Str} {e e' : Entity T D}
    {calls : LTree Key (LoadCall C)}
    (hrun : (loadWithParentKey P A R target h cannotLocate fuel parentKey).run e =
      .ok calls e') :
    e'.key = e.key ∧ e'.type = e.type ∧ (e'.Typed ↔ LoadsTyped P A R h fuel parentKey e) := by
  induction fuel generalizing parentKey e e' calls with
  | zero => cases hrun
  | succ n ih =>
    obtain ⟨_, tree, d, members, ⟨rfl⟩, -, hnode, -, hmembers, -⟩ :=
      of_loadWithParentKey_ok P A R target h cannotLocate hrun
    obtain ⟨hkey, htype, -⟩ := kept_of_loadMembers hmembers
    refine ⟨hkey, htype, ?_⟩
    have hconstructor : e'.constructorOf = constructorAfter A R (e.setData d) tree.children :=
      funext (constructorOf_loadMembers hmembers)
    have hdata : constructorAfter A R (e.setData d) tree.children =
        constructorAfter A R e tree.children := rfl
    rw [typed_eq, hconstructor, hdata,
      membersTyped_loadMembers (fun m calls m' hload => ih hload) hmembers, membersMap_setData,
      LoadsTyped]
    constructor
    · intro hall tree' htree'
      rw [hnode] at htree'
      cases htree'
      exact hall
    · intro hall
      exact hall tree hnode

/-- A new entity without members can be copied after it was loaded only when no member was: the
registry makes objects of classes that implement the interface, and `Entity` does not. -/
theorem loadsTyped_of_nil {fuel : Nat} {parentKey : Str} {e : Entity T D}
    (hmembers : e.membersMap = []) (hconstructors : e.keyToEntityConstructorMap = [])
    (hclass : ∀ k m, R.generateEntity k = .ok m → m.type ≠ A.entityClass) :
    LoadsTyped P A R h (fuel + 1) parentKey e ↔
      ∀ tree, P.getChildOptional (searchPathOf parentKey e.key) h.serializationStructure =
        some tree → ∀ k ∈ keys tree.children, R.hasRegisteredKey k = false := by
  unfold LoadsTyped
  refine forall₂_congr fun tree _ => ?_
  rw [hmembers, MembersTyped, true_and]
  refine forall₂_congr fun k hk => ?_
  have hnone : e.constructorOf k = none := by
    rw [constructorOf, hconstructors]
    rfl
  cases hreg : R.hasRegisteredKey k with
  | false => exact iff_of_true (fun m hgen => absurd hgen (generateEntity_of_unregistered hreg m)) rfl
  | true =>
    obtain ⟨m, hgen⟩ := hasRegisteredKey_iff.mp hreg
    refine iff_of_false (fun hall => ?_) Bool.false_ne_true.symm
    have hconstructor := (hall _ hgen).1
    rw [constructorAfter, hnone, Option.none_or, if_pos ⟨hk, hreg⟩] at hconstructor
    exact hclass k _ hgen (Option.some.inj hconstructor).symm

/-- `LoadEntity` makes an entity that can be copied. -/
def LoadedTyped (e : Entity T D) : Prop :=
  let keyPath := getKeyPath e.key h.serializationStructure
  if keyPath = [] then e.Typed
  else LoadsTyped P A R h (h.serializationStructure.height + 1) (getParentKeyPath keyPath) e

theorem typed_of_loadByKey {e e' : Entity T D} {calls : Option (LTree Key (LoadCall C))}
    (hrun : (loadByKey P A R target h cannotLocate).run e = .ok calls e') :
    e'.key = e.key ∧ e'.type = e.type ∧ (e'.Typed ↔ LoadedTyped P A R h e) := by
  unfold loadByKey at hrun
  rw [bind_ok (EStateM.run_get e)] at hrun
  by_cases hkey : e.key = []
  · simp only [if_pos hkey] at hrun
    cases hrun
  · simp only [if_neg hkey] at hrun
    unfold LoadedTyped
    by_cases hpath : getKeyPath e.key h.serializationStructure = []
    · simp only [if_pos hpath] at hrun ⊢
      cases hrun
      exact ⟨rfl, rfl, Iff.rfl⟩
    · simp only [if_neg hpath] at hrun ⊢
      obtain ⟨calls', e₁, hload, hrun⟩ := of_bind_ok hrun
      cases hrun
      exact typed_of_loadWithParentKey P A R target h cannotLocate hload

end Load

/-! ## Lazy loading -/

section Lazy

/-- `GetAggregatedMember` for one key after the other. -/
def getAggregatedMembers {α : Type} (getMember : Key → EStateM Exception (Entity T D) α) :
    List Key → EStateM Exception (Entity T D) (List α)
  | [] => pure []
  | key :: ks => do
    let member ← getMember key
    let members ← getAggregatedMembers getMember ks
    pure (member :: members)

variable (P : PtreePaths) (A : Adapter T D C) (R : EntityRegistry T D) (h : EntityHierarchy)

/-- Asking for the members of some keys makes an entity that can be copied. Every null pointer must
be among them, under a registered key that has a constructor of the right type already. -/
def LazyTyped (e : Entity T D) (ks : List Key) : Prop :=
  ∀ p ∈ e.membersMap, match p.2 with
    | some m => m.key ≠ [] ∧ e.constructorOf m.key = some m.type ∧ m.Typed
    | none => p.1 ∈ ks ∧ p.1 ≠ [] ∧ ∃ m, R.generateEntity p.1 = .ok m ∧
        e.constructorOf p.1 = some m.type ∧ LoadedTyped P A R h m

theorem lazyTyped_nil {e : Entity T D} : LazyTyped P A R h e [] ↔ e.Typed := by
  rw [typed_eq, membersTyped_iff]
  refine forall₂_congr fun p _ => ?_
  obtain ⟨key, pointer⟩ := p
  cases pointer with
  | none => simp
  | some m => simp

variable {P A R h}

/-- The pointer under a key is the only one there. -/
theorem pointer_of_lookup {key : Key} {e : Entity T D} {pointer : Option (Entity T D)}
    (hn : (keys e.membersMap).Nodup) (hlookup : List.lookup key e.membersMap = some pointer) :
    ∀ p ∈ e.membersMap, p.1 = key → p.2 = pointer := by
  rintro ⟨k, q⟩ hp rfl
  rw [lookup_of_nodup hn hp] at hlookup
  exact Option.some.inj hlookup

/-- What is asked of a placeholder before it is filled is asked of its member afterwards. -/
theorem lazyTyped_fill {key : Key} {e m m' : Entity T D} (hn : (keys e.membersMap).Nodup)
    (hlookup : List.lookup key e.membersMap = some none) (hgen : R.generateEntity key = .ok m)
    (hkey : m'.key = m.key) (htype : m'.type = m.type) (htyped : m'.Typed ↔ LoadedTyped P A R h m)
    (ks : List Key) :
    LazyTyped P A R h (e.setMembersMap (setIn key (some m') e.membersMap)) ks ↔
      LazyTyped P A R h e (key :: ks) := by
  have hmk : m.key = key := key_of_generateEntity hgen
  unfold LazyTyped
  rw [membersMap_setMembersMap]
  constructor
  · intro hall p hp
    by_cases hpk : p.1 = key
    · obtain ⟨hne, hconstructor, hmtyped⟩ := hall (key, some m') ((mem_setIn hn).mpr (Or.inl rfl))
      obtain ⟨k, pointer⟩ := p
      obtain rfl : k = key := hpk
      obtain rfl : pointer = none := pointer_of_lookup hn hlookup _ hp rfl
      rw [hkey, hmk] at hne hconstructor
      rw [htype] at hconstructor
      exact ⟨List.mem_cons_self, hne, m, hgen, hconstructor, htyped.mp hmtyped⟩
    · have hq := hall p ((mem_setIn hn).mpr (Or.inr ⟨hp, hpk⟩))
      obtain ⟨k, pointer⟩ := p
      cases pointer with
      | some m₁ => exact hq
      | none => exact ⟨List.mem_cons_of_mem key hq.1, hq.2⟩
  · intro hall p hp
    rcases (mem_setIn hn).mp hp with rfl | ⟨hp, hpk⟩
    · obtain ⟨-, hne, m₁, hgen₁, hconstructor, hm₁⟩ := hall _ (lookup_mem hlookup)
      obtain rfl : m = m₁ := Except.ok.inj (hgen.symm.trans hgen₁)
      refine ⟨?_, ?_, htyped.mpr hm₁⟩
      · rw [hkey, hmk]
        exact hne
      · rw [hkey, hmk, htype]
        exact hconstructor
    · have hq := hall p hp
      obtain ⟨k, pointer⟩ := p
      cases pointer with
      | some m₁ => exact hq
      | none => exact ⟨(List.mem_cons.mp hq.1).resolve_left hpk, hq.2⟩

/-- After one call, what is asked of the calls that follow is what was asked of all of them. -/
theorem lazyTyped_getAggregatedMember {loadEntity : EStateM Exception (Entity T D)
      (Option (LTree Key (LoadCall C)))}
    (hload : ∀ m calls m', loadEntity.run m = .ok calls m' →
      m'.key = m.key ∧ m'.type = m.type ∧ (m'.Typed ↔ LoadedTyped P A R h m))
    {key : Key} {e e' : Entity T D} {r : Option (Entity T D) × Option (LTree Key (LoadCall C))}
    (hn : (keys e.membersMap).Nodup)
    (hrun : (getAggregatedMember R loadEntity key).run e = .ok r e') (ks : List Key) :
    (keys e'.membersMap).Nodup ∧
      (LazyTyped P A R h e' ks ↔ LazyTyped P A R h e (key :: ks)) := by
  rcases getAggregatedMember_cases hrun with
    ⟨⟨m, hlookup, -⟩, rfl⟩ | ⟨hlookup, hreg, -, rfl⟩ | ⟨m, calls, m', hlookup, hgen, hm, -, rfl⟩
  · refine ⟨hn, forall₂_congr fun p hp => ?_⟩
    obtain ⟨k, pointer⟩ := p
    cases pointer with
    | some m' => exact Iff.rfl
    | none =>
      have hne : k ≠ key := fun hk => nomatch pointer_of_lookup hn hlookup _ hp hk
      simp only [List.mem_cons, hne, false_or]
  · -- the placeholder stays null
    refine ⟨hn, ?_⟩
    have hfalse : ∀ js, ¬ LazyTyped P A R h e' js := by
      intro js hall
      obtain ⟨-, -, m, hgen, -⟩ := hall _ (lookup_mem hlookup)
      exact generateEntity_of_unregistered hreg m hgen
    exact iff_of_false (hfalse ks) (hfalse (key :: ks))
  · obtain ⟨hkey, htype, htyped⟩ := hload m calls m' hm
    refine ⟨?_, lazyTyped_fill hn hlookup hgen hkey htype htyped ks⟩
    rw [membersMap_setMembersMap]
    exact nodup_keys_setIn hn _

/-- The same for the calls for several keys. -/
theorem typed_of_getAggregatedMembers {loadEntity : EStateM Exception (Entity T D)
      (Option (LTree Key (LoadCall C)))}
    (hload : ∀ m calls m', loadEntity.run m = .ok calls m' →
      m'.key = m.key ∧ m'.type = m.type ∧ (m'.Typed ↔ LoadedTyped P A R h m))
    {ks : List Key} {e e' : Entity T D}
    {rs : List (Option (Entity T D) × Option (LTree Key (LoadCall C)))}
    (hn : (keys e.membersMap).Nodup)
    (hrun : (getAggregatedMembers (getAggregatedMember R loadEntity) ks).run e = .ok rs e') :
    e'.Typed ↔ LazyTyped P A R h e ks := by
  induction ks generalizing e rs with
  | nil =>
    cases hrun
    exact (lazyTyped_nil P A R h).symm
  | cons key ks ih =>
    obtain ⟨r, e₁, hfirst, hrun⟩ := of_bind_ok hrun
    obtain ⟨rs', e₂, hrest, hrun⟩ := of_bind_ok hrun
    cases hrun
    obtain ⟨hn₁, hstep⟩ := lazyTyped_getAggregatedMember hload hn hfirst ks
    rw [ih hn₁ hrest, hstep]

end Lazy

/-! ## The four loaders -/

section Loaders

variable (P : PtreePaths) (R : EntityRegistry T D)

theorem typed_of_deserializer (A : Adapter T D Path) {hierarchy : EntityHierarchy}
    {e e' : Entity T D} {calls : Option (LTree Key (LoadCall Path))}
    (hrun : (EntityDeserializer.loadEntity P A R hierarchy).run e = .ok calls e') :
    e'.key = e.key ∧ e'.type = e.type ∧ (e'.Typed ↔ LoadedTyped P A R hierarchy e) := by
  unfold EntityDeserializer.loadEntity at hrun
  by_cases hstructure : hierarchy.hasSerializationStructure = true
  · rw [if_pos hstructure] at hrun
    exact typed_of_loadByKey P A R directoryOf hierarchy _ hrun
  · rw [if_neg hstructure] at hrun
    cases hrun
    have hpath := getKeyPath_of_no_structure (Bool.not_eq_true _ |>.mp hstructure) e.key
    rw [LoadedTyped, if_pos hpath]
    exact ⟨rfl, rfl, Iff.rfl⟩

theorem typed_of_loader (A : Adapter T D Unit) {w : LoaderWorld} {e e' : Entity T D}
    {calls : Option (LTree Key (LoadCall Unit))}
    (hrun : (EntityLoader.loadEntity P A R w).run e = .ok calls e') :
    e'.key = e.key ∧ e'.type = e.type ∧ (e'.Typed ↔ LoadedTyped P A R w.hierarchy e) := by
  unfold EntityLoader.loadEntity at hrun
  by_cases hopen : w.database.isOpen = true
  · rw [if_pos hopen] at hrun
    exact typed_of_loadByKey P A R _ w.hierarchy _ hrun
  · rw [if_neg hopen] at hrun
    cases hrun

variable (Cl : EntityClasses T D)

/-- What `LoadEntity` and `GetAggregatedMember` make can be copied without loss exactly when each
member had a constructor of its own class before it was loaded, and nothing is left null. -/
theorem copiesWithoutLoss_loaded :
    (∀ (A : Adapter T D Path) hierarchy e e' calls,
      (EntityDeserializer.loadEntity P A R hierarchy).run e = .ok calls e' →
        (e'.CopiesWithoutLoss Cl ↔ LoadedTyped P A R hierarchy e)) ∧
    (∀ (A : Adapter T D Unit) w e e' calls,
      (EntityLoader.loadEntity P A R w).run e = .ok calls e' →
        (e'.CopiesWithoutLoss Cl ↔ LoadedTyped P A R w.hierarchy e)) ∧
    (∀ (A : Adapter T D Path) hierarchy ks e e' rs, (keys e.membersMap).Nodup →
      (getAggregatedMembers (ISerializableEntity.getAggregatedMember P A R hierarchy) ks).run e =
          .ok rs e' →
        (e'.CopiesWithoutLoss Cl ↔ LazyTyped P A R hierarchy e ks)) ∧
    ∀ (A : Adapter T D Unit) w ks e e' rs, (keys e.membersMap).Nodup →
      (getAggregatedMembers (IPersistableEntity.getAggregatedMember P A R w) ks).run e =
          .ok rs e' →
        (e'.CopiesWithoutLoss Cl ↔ LazyTyped P A R w.hierarchy e ks) := by
  refine ⟨fun A hierarchy e e' calls hrun => ?_, fun A w e e' calls hrun => ?_,
    fun A hierarchy ks e e' rs hn hrun => ?_, fun A w ks e e' rs hn hrun => ?_⟩
  · rw [copiesWithoutLoss_iff]
    exact (typed_of_deserializer P R A hrun).2.2
  · rw [copiesWithoutLoss_iff]
    exact (typed_of_loader P R A hrun).2.2
  · rw [copiesWithoutLoss_iff]
    exact typed_of_getAggregatedMembers (fun _ _ _ => typed_of_deserializer P R A) hn hrun
  · rw [copiesWithoutLoss_iff]
    exact typed_of_getAggregatedMembers (fun _ _ _ => typed_of_loader P R A) hn hrun

end Loaders

/-! ## A loaded member -/

/-- The class `Entity` and a class that is derived from it and from the adapters' interfaces. -/
inductive PartClass where
  | entity
  | part
  deriving DecidableEq

def partClasses : EntityClasses PartClass Nat where
  derivesFrom t s := t == s || s == .entity
  derivesFrom_self t := by rw [beq_self_eq_true, Bool.true_or]
  slice s t d := if s = t then d else 0
  slice_self _ _ := if_pos rfl

def partAdapter (C : Type) : Adapter PartClass Nat C where
  implements t := t == .part
  save _ _ _ := pure ()
  load _ _ _ := pure ()
  entityClass := .entity

def partRegistry : EntityRegistry PartClass Nat where
  keyToEntityMap key := if key = "m".toList then some (.mk [] .part 8 [] []) else none

/-- A root with one member. -/
def rootWithMember : EntityHierarchy where
  serializationPath := "entities.json".toList
  serializationStructure := .node [] [("r".toList, .node [] [("m".toList, LTree.empty)])]

/-- A root as it is loaded from there, and one whose member is still to be loaded. -/
def emptyRoot : Entity PartClass Nat := .mk "r".toList .part 1 [] []
def lazyRoot : Entity PartClass Nat := .mk "r".toList .part 1 [("m".toList, none)] []

/-- The copy of a loaded member is of the class `Entity` and has lost its data; the copy of an
entity whose member was loaded lazily calls an empty function, and before that it reads through a
null pointer. -/
theorem loaded_member_is_sliced :
    (∃ calls e' c, (EntityDeserializer.loadEntity boostPaths (partAdapter Path) partRegistry
        rootWithMember).run emptyRoot = .ok calls e' ∧
      e'.membersMap = [("m".toList, some (.mk "m".toList .part 8 [] []))] ∧
      e'.copyConstruct partClasses = .ok c ∧
      c.membersMap = [("m".toList, some (.mk "m".toList .entity 0 [] []))]) ∧
    (∃ rs e', (getAggregatedMembers (ISerializableEntity.getAggregatedMember boostPaths
        (partAdapter Path) partRegistry rootWithMember) ["m".toList]).run lazyRoot = .ok rs e' ∧
      e'.copyConstruct partClasses = .error badFunctionCall) ∧
    lazyRoot.copyConstruct partClasses = .error .nullDereference :=
  ⟨⟨_, _, _, rfl, rfl, rfl, rfl⟩, ⟨_, _, rfl, rfl⟩, rfl⟩

/-- The loader of a database that is open, with the same hierarchy. -/
def loaderOfRoot : LoaderWorld where
  disk := ⟨fun _ => none, []⟩
  resourceLoader := Sqlite.new
  registry _ := none
  database := ⟨some ⟨some "entities.db".toList, 0⟩, "entities.db".toList⟩
  hierarchy := rootWithMember

/-- The root after a member `m` of its own class was aggregated and removed: the constructor stays. -/
def rootWithConstructor (members : List (Key × Option (Entity PartClass Nat))) :
    Entity PartClass Nat :=
  .mk "r".toList .part 1 members [("m".toList, .part)]

theorem loadedTyped_member {m : Entity PartClass Nat}
    (hgen : partRegistry.generateEntity "m".toList = .ok m) (fuel : Nat) :
    LoadsTyped boostPaths (partAdapter C) partRegistry rootWithMember (fuel + 1) "r".toList m := by
  cases hgen
  intro tree htree
  cases htree
  exact ⟨trivial, fun k hk => absurd hk List.not_mem_nil⟩

theorem loadedTyped_rootWithConstructor :
    LoadedTyped boostPaths (partAdapter C) partRegistry rootWithMember
      (rootWithConstructor []) := by
  intro tree htree
  cases htree
  refine ⟨trivial, fun k hk m hgen => ?_⟩
  obtain rfl : k = "m".toList := List.mem_singleton.mp hk
  refine ⟨?_, loadedTyped_member hgen _⟩
  cases hgen
  rfl

theorem lazyTyped_rootWithConstructor :
    LazyTyped boostPaths (partAdapter C) partRegistry rootWithMember
      (rootWithConstructor [("m".toList, none)]) ["m".toList] := by
  intro p hp
  rw [List.mem_singleton.mp hp]
  refine ⟨List.mem_singleton_self _, by decide, _, rfl, rfl, ?_⟩
  exact loadedTyped_member rfl _

/-- Where the constructor of the class was there before, the member is loaded, and the entity copies
without loss. -/
theorem copiesWithoutLoss_rootWithConstructor :
    (∃ calls e', (EntityDeserializer.loadEntity boostPaths (partAdapter Path) partRegistry
        rootWithMember).run (rootWithConstructor []) = .ok calls e' ∧
      e'.CopiesWithoutLoss partClasses) ∧
    (∃ calls e', (EntityLoader.loadEntity boostPaths (partAdapter Unit) partRegistry
        loaderOfRoot).run (rootWithConstructor []) = .ok calls e' ∧
      e'.CopiesWithoutLoss partClasses) ∧
    (∃ rs e', (getAggregatedMembers (ISerializableEntity.getAggregatedMember boostPaths
        (partAdapter Path) partRegistry rootWithMember) ["m".toList]).run
          (rootWithConstructor [("m".toList, none)]) = .ok rs e' ∧
      e'.CopiesWithoutLoss partClasses) ∧
    ∃ rs e', (getAggregatedMembers (IPersistableEntity.getAggregatedMember boostPaths
        (partAdapter Unit) partRegistry loaderOfRoot) ["m".toList]).run
          (rootWithConstructor [("m".toList, none)]) = .ok rs e' ∧
      e'.CopiesWithoutLoss partClasses := by
  obtain ⟨hfile, hdatabase, hlazyFile, hlazyDatabase⟩ :=
    copiesWithoutLoss_loaded boostPaths partRegistry partClasses
  refine ⟨⟨_, _, rfl, (hfile _ rootWithMember _ _ _ rfl).mpr loadedTyped_rootWithConstructor⟩,
    ⟨_, _, rfl, (hdatabase _ loaderOfRoot _ _ _ rfl).mpr loadedTyped_rootWithConstructor⟩,
    ⟨_, _, rfl, (hlazyFile _ rootWithMember _ _ _ _ ?_ rfl).mpr lazyTyped_rootWithConstructor⟩,
    ⟨_, _, rfl, (hlazyDatabase _ loaderOfRoot _ _ _ _ ?_ rfl).mpr
      lazyTyped_rootWithConstructor⟩⟩
  · decide
  · decide

end Azulejo
