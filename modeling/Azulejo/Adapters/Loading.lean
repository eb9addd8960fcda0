import Azulejo.Adapters.Canonical
import Azulejo.Adapters.KeySearch

/-!
# Loading an entity tree

What one turn of the loop over a node's children does, taken apart and put together
(`of_loadMembers_registered`, `loadMembers_registered`); that more fuel changes nothing;
and the main result, that loading from a canonical tree rebuilds the keys of the entity it
was saved from (`loadWithParentKey_canonical`).
-/

namespace Azulejo

open AssocList Stateful Entity

variable {T D C : Type}

/-! ## One turn of the loop -/

section Loop

variable {A : Adapter T D C} {R : EntityRegistry T D}

theorem generateEntity_eq_ok {k : Key} {m : Entity T D} :
    R.generateEntity k = .ok m ↔ ∃ proto, R.keyToEntityMap k = some proto ∧ m = proto.setKey k := by
  unfold EntityRegistry.generateEntity
  cases h : R.keyToEntityMap k with
  | none =>
    constructor
    · intro he
      cases he
    · rintro ⟨proto, hp, _⟩
      cases hp
  | some proto =>
    constructor
    · intro he
      cases he
      exact ⟨proto, rfl, rfl⟩
    · rintro ⟨proto', hp, rfl⟩
      cases hp
      rfl

theorem key_of_generateEntity {k : Key} {m : Entity T D} (hgen : R.generateEntity k = .ok m) :
    m.key = k := by
  obtain ⟨proto, _, rfl⟩ := generateEntity_eq_ok.mp hgen
  rfl

theorem hasRegisteredKey_iff {k : Key} :
    R.hasRegisteredKey k = true ↔ ∃ m, R.generateEntity k = .ok m := by
  unfold EntityRegistry.hasRegisteredKey
  constructor
  · intro h
    obtain ⟨proto, hproto⟩ := Option.isSome_iff_exists.mp h
    exact ⟨_, generateEntity_eq_ok.mpr ⟨proto, hproto, rfl⟩⟩
  · rintro ⟨m, hgen⟩
    obtain ⟨proto, hproto, _⟩ := generateEntity_eq_ok.mp hgen
    rw [hproto]
    rfl

theorem generateEntity_of_unregistered {k : Key} (h : R.hasRegisteredKey k = false)
    (m : Entity T D) : R.generateEntity k ≠ .ok m := by
  intro hgen
  have hreg := hasRegisteredKey_iff.mpr ⟨m, hgen⟩
  rw [h] at hreg
  cases hreg

theorem onEntity_run (f : Entity T D → Except Exception (Entity T D)) (e : Entity T D) :
    (onEntity f).run e =
      match f e with
      | .ok e' => .ok () e'
      | .error err => .error err e := rfl

/-- `AggregateMember` of a generated entity. -/
theorem aggregateGenerated_eq_ok {k : Key} {e e' : Entity T D} {u : Unit} :
    (onEntity (fun e => do
      let memberEntity ← R.generateEntity k
      e.aggregateMember A.entityClass (some memberEntity))).run e = .ok u e' ↔
    ∃ m, R.generateEntity k = .ok m ∧ k ≠ [] ∧ k ∉ keys e.membersMap ∧
      e' = withMember A.entityClass k m e := by
  rw [onEntity_run]
  cases hg : R.generateEntity k with
  | error err =>
    constructor
    · intro h
      cases h
    · rintro ⟨m, hm, _⟩
      cases hm
  | ok m =>
    obtain ⟨proto, _, rfl⟩ := generateEntity_eq_ok.mp hg
    show (match e.aggregateMember A.entityClass (some (proto.setKey k)) with
      | .ok e' => EStateM.Result.ok () e'
      | .error err => .error err e) = .ok u e' ↔ _
    constructor
    · intro h
      split at h
      · rename_i e₁ ha
        cases h
        obtain ⟨h₁, h₂, h₃⟩ := aggregateMember_eq_ok.mp ha
        exact ⟨_, rfl, h₁, h₂, h₃⟩
      · cases h
    · rintro ⟨m, hm, h₁, h₂, rfl⟩
      cases hm
      have ha : e.aggregateMember A.entityClass (some (proto.setKey k)) =
          .ok (withMember A.entityClass k (proto.setKey k) e) :=
        aggregateMember_eq_ok.mpr ⟨h₁, h₂, rfl⟩
      rw [ha]

theorem onMember_run {α : Type} {k : Key} {e m : Entity T D}
    (h : List.lookup k e.membersMap = some (some m)) (x : EStateM Exception (Entity T D) α) :
    (onMember k x).run e =
      (zoom (fun _ => m)
        (fun (e : Entity T D) m' => e.setMembersMap (setIn k (some m') e.membersMap)) x).run e := by
  simp only [onMember, EStateM.run, h]

/-- Loading the member that was just added replaces it by what the loading makes of it. -/
theorem onMember_withMember {α : Type} {k : Key} {e m : Entity T D}
    (hfree : k ∉ keys e.membersMap) (x : EStateM Exception (Entity T D) α) :
    (onMember k x).run (withMember A.entityClass k m e) =
      match x.run m with
      | .ok a m' => .ok a (withMember A.entityClass k m' e)
      | .error err m' => .error err (withMember A.entityClass k m' e) := by
  have hlookup : List.lookup k (withMember A.entityClass k m e).membersMap = some (some m) := by
    rw [membersMap_withMember, lookup_insertSorted_self]
  rw [onMember_run hlookup, zoom_run]
  cases x.run m with
  | ok a m' => simp only [withMember_setIn hfree]
  | error err m' => simp only [withMember_setIn hfree]

variable {loadMember : EStateM Exception (Entity T D) (LTree Key (LoadCall C))}

theorem loadMembers_unregistered {k : Key} {c : Ptree} {cs : List (Key × Ptree)}
    (h : R.hasRegisteredKey k = false) :
    loadMembers A R loadMember ((k, c) :: cs) = loadMembers A R loadMember cs := by
  simp [loadMembers, h]

/-- Children without a registered key are passed over. -/
theorem loadMembers_append_unregistered {props cs : List (Key × Ptree)}
    (h : ∀ k ∈ keys props, R.hasRegisteredKey k = false) :
    loadMembers A R loadMember (props ++ cs) = loadMembers A R loadMember cs := by
  induction props with
  | nil => rfl
  | cons p props ih =>
    obtain ⟨k, c⟩ := p
    rw [List.cons_append, loadMembers_unregistered (h k (by simp))]
    exact ih fun j hj => h j (by simp [hj])

/-- A registered child: a new entity is added under its key and loaded in place. -/
theorem loadMembers_registered {k : Key} {c : Ptree} {cs : List (Key × Ptree)}
    {e m m' e' : Entity T D} {calls : LTree Key (LoadCall C)}
    {more : List (Key × LTree Key (LoadCall C))} (hreg : R.hasRegisteredKey k = true)
    (hk : k ≠ []) (hfree : k ∉ keys e.membersMap) (hgen : R.generateEntity k = .ok m)
    (hload : loadMember.run m = .ok calls m')
    (hrest : (loadMembers A R loadMember cs).run (withMember A.entityClass k m' e) =
      .ok more e') :
    (loadMembers A R loadMember ((k, c) :: cs)).run e = .ok ((k, calls) :: more) e' := by
  have hadd := aggregateGenerated_eq_ok (A := A) (u := ()) |>.mpr ⟨m, hgen, hk, hfree, rfl⟩
  have hmember := onMember_withMember (A := A) (m := m) hfree loadMember
  rw [hload] at hmember
  unfold loadMembers
  rw [if_pos hreg, bind_ok hadd, bind_ok hmember, bind_ok hrest]
  rfl

/-- What a turn on a registered child has done when the loop returns. -/
theorem of_loadMembers_registered {k : Key} {c : Ptree} {cs : List (Key × Ptree)}
    {e e' : Entity T D} {calls : List (Key × LTree Key (LoadCall C))}
    (hreg : R.hasRegisteredKey k = true)
    (h : (loadMembers A R loadMember ((k, c) :: cs)).run e = .ok calls e') :
    ∃ m m' first more, k ≠ [] ∧ k ∉ keys e.membersMap ∧ R.generateEntity k = .ok m ∧
      loadMember.run m = .ok first m' ∧
      (loadMembers A R loadMember cs).run (withMember A.entityClass k m' e) = .ok more e' ∧
      calls = (k, first) :: more := by
  unfold loadMembers at h
  rw [if_pos hreg] at h
  obtain ⟨u, e₁, hadd, h⟩ := of_bind_ok h
  obtain ⟨m, hgen, hk, hfree, rfl⟩ := aggregateGenerated_eq_ok.mp hadd
  obtain ⟨first, e₂, hmember, h⟩ := of_bind_ok h
  rw [onMember_withMember hfree] at hmember
  cases hload : loadMember.run m with
  | error err m' =>
    rw [hload] at hmember
    cases hmember
  | ok a m' =>
    rw [hload] at hmember
    cases hmember
    obtain ⟨more, e₃, hrest, h⟩ := of_bind_ok h
    cases h
    exact ⟨m, m', first, more, hk, hfree, hgen, hload, hrest, rfl⟩

/-- What is kept whenever a new member is added is kept by the loop. -/
theorem loadMembers_keeps {Q : Entity T D → Prop} {cs : List (Key × Ptree)} {e e' : Entity T D}
    {calls : List (Key × LTree Key (LoadCall C))}
    (h : (loadMembers A R loadMember cs).run e = .ok calls e')
    (hadd : ∀ k ∈ keys cs, R.hasRegisteredKey k = true → ∀ m e, k ∉ keys e.membersMap →
      Q e → Q (withMember A.entityClass k m e)) (he : Q e) : Q e' := by
  induction cs generalizing e calls with
  | nil =>
    cases h
    exact he
  | cons p cs ih =>
    obtain ⟨k, c⟩ := p
    rw [keys_cons, List.forall_mem_cons] at hadd
    cases hreg : R.hasRegisteredKey k with
    | false =>
      rw [loadMembers_unregistered hreg] at h
      exact ih h hadd.2 he
    | true =>
      obtain ⟨m, m', first, more, -, hfree, -, -, hrest, -⟩ := of_loadMembers_registered hreg h
      exact ih hrest hadd.2 (hadd.1 hreg m' e hfree he)

/-- The loop keeps the entity's own key, type and data. -/
theorem kept_of_loadMembers {cs : List (Key × Ptree)} {e e' : Entity T D}
    {calls : List (Key × LTree Key (LoadCall C))}
    (h : (loadMembers A R loadMember cs).run e = .ok calls e') :
    e'.key = e.key ∧ e'.type = e.type ∧ e'.data = e.data := by
  refine loadMembers_keeps (Q := fun e' => e'.key = e.key ∧ e'.type = e.type ∧ e'.data = e.data) h
    ?_ ⟨rfl, rfl, rfl⟩
  rintro k _ _ m e' _ ⟨hkey, htype, hdata⟩
  exact ⟨(key_withMember _ _ _ _).trans hkey, (type_withMember _ _ _ _).trans htype,
    (data_withMember _ _ _ _).trans hdata⟩

/-- The loop depends on the loading of members only through the runs that return. -/
theorem loadMembers_mono {loadMember' : EStateM Exception (Entity T D) (LTree Key (LoadCall C))}
    (hmono : ∀ m calls m', loadMember.run m = .ok calls m' → loadMember'.run m = .ok calls m')
    {cs : List (Key × Ptree)} {e e' : Entity T D}
    {calls : List (Key × LTree Key (LoadCall C))}
    (h : (loadMembers A R loadMember cs).run e = .ok calls e') :
    (loadMembers A R loadMember' cs).run e = .ok calls e' := by
  induction cs generalizing e calls with
  | nil => exact h
  | cons p cs ih =>
    obtain ⟨k, c⟩ := p
    cases hreg : R.hasRegisteredKey k with
    | false =>
      rw [loadMembers_unregistered hreg] at h ⊢
      exact ih h
    | true =>
      obtain ⟨m, m', first, more, hk, hfree, hgen, hload, hrest, rfl⟩ :=
        of_loadMembers_registered hreg h
      exact loadMembers_registered hreg hk hfree hgen (hmono _ _ _ hload) (ih hrest)

end Loop

/-! ## Loading one entity -/

section Load

variable (P : PtreePaths) (A : Adapter T D C) (R : EntityRegistry T D)
  (target : Path → Str → C) (h : EntityHierarchy) (cannotLocate : Str)

/-- An entity whose node is found and whose `Load` returns is loaded once its members are. -/
theorem loadWithParentKey_ok {fuel : Nat} {parentKey : Str} {e e' : Entity T D} {tree : Ptree}
    {d : D} {calls : List (Key × LTree Key (LoadCall C))} (hkey : e.key ≠ [])
    (hnode : P.getChildOptional (searchPathOf parentKey e.key) h.serializationStructure =
      some tree)
    (hload : (A.load e.type tree (target h.serializationPath
      (searchPathOf parentKey e.key))).run e.data = .ok () d)
    (hmembers : (loadMembers A R (loadWithParentKey P A R target h cannotLocate fuel
      (searchPathOf parentKey e.key)) tree.children).run (e.setData d) = .ok calls e') :
    (loadWithParentKey P A R target h cannotLocate (fuel + 1) parentKey).run e =
      .ok (.node ⟨searchPathOf parentKey e.key, tree,
        target h.serializationPath (searchPathOf parentKey e.key)⟩ calls) e' := by
  unfold loadWithParentKey
  rw [bind_ok (EStateM.run_get e)]
  simp only [if_neg hkey, hnode]
  rw [bind_ok (zoom_ok hload), bind_ok hmembers]
  rfl

theorem of_loadWithParentKey_ok {fuel : Nat} {parentKey : Str} {e e' : Entity T D}
    {calls : LTree Key (LoadCall C)}
    (hrun : (loadWithParentKey P A R target h cannotLocate fuel parentKey).run e =
      .ok calls e') :
    ∃ n tree d members, fuel = n + 1 ∧ e.key ≠ [] ∧
      P.getChildOptional (searchPathOf parentKey e.key) h.serializationStructure = some tree ∧
      (A.load e.type tree (target h.serializationPath
        (searchPathOf parentKey e.key))).run e.data = .ok () d ∧
      (loadMembers A R (loadWithParentKey P A R target h cannotLocate n
        (searchPathOf parentKey e.key)) tree.children).run (e.setData d) = .ok members e' ∧
      calls = .node ⟨searchPathOf parentKey e.key, tree,
        target h.serializationPath (searchPathOf parentKey e.key)⟩ members := by
  cases fuel with
  | zero => cases hrun
  | succ n =>
    unfold loadWithParentKey at hrun
    rw [bind_ok (EStateM.run_get e)] at hrun
    by_cases hkey : e.key = []
    · simp only [if_pos hkey] at hrun
      cases hrun
    · simp only [if_neg hkey] at hrun
      cases hnode : P.getChildOptional (searchPathOf parentKey e.key)
          h.serializationStructure with
      | none =>
        simp only [hnode] at hrun
        cases hrun
      | some tree =>
        simp only [hnode] at hrun
        obtain ⟨u, e₁, hzoom, hrun⟩ := of_bind_ok hrun
        obtain ⟨d, hload, rfl⟩ := of_zoom_ok hzoom
        obtain ⟨members, e₂, hmembers, hrun⟩ := of_bind_ok hrun
        cases hrun
        exact ⟨n, tree, d, members, rfl, hkey, rfl, hload, hmembers, rfl⟩

/-- A run that returns does so with any larger bound on the depth. -/
theorem loadWithParentKey_mono {fuel fuel' : Nat} (hle : fuel ≤ fuel') {parentKey : Str}
    {e e' : Entity T D} {calls : LTree Key (LoadCall C)}
    (hrun : (loadWithParentKey P A R target h cannotLocate fuel parentKey).run e =
      .ok calls e') :
    (loadWithParentKey P A R target h cannotLocate fuel' parentKey).run e = .ok calls e' := by
  induction fuel generalizing fuel' parentKey e e' calls with
  | zero => cases hrun
  | succ n ih =>
    obtain ⟨n', rfl⟩ : ∃ n', fuel' = n' + 1 := ⟨fuel' - 1, by omega⟩
    obtain ⟨_, tree, d, members, hn, hkey, hnode, hload, hmembers, rfl⟩ :=
      of_loadWithParentKey_ok P A R target h cannotLocate hrun
    cases hn
    have hle' : n ≤ n' := by omega
    have hmembers' := loadMembers_mono (fun _ _ _ hm => ih hle' hm) hmembers
    exact loadWithParentKey_ok P A R target h cannotLocate hkey hnode hload hmembers'

/-- `LoadEntity` searches for the key and loads from the node found. -/
theorem loadByKey_eq {e : Entity T D} (hkey : PlainKey e.key) :
    (loadByKey P A R target h cannotLocate).run e =
      match h.serializationStructure.firstPath e.key with
      | none => .ok none e
      | some p =>
        ((do
          let calls ← loadWithParentKey P A R target h cannotLocate
            (h.serializationStructure.height + 1) (dotted p.dropLast)
          pure (some calls) :
            EStateM Exception (Entity T D) (Option (LTree Key (LoadCall C))))).run e := by
  unfold loadByKey
  rw [bind_ok (EStateM.run_get e)]
  simp only [if_neg hkey.1]
  rw [getKeyPath_eq hkey]
  cases hfirst : h.serializationStructure.firstPath e.key with
  | none => simp
  | some p =>
    obtain ⟨q, rfl⟩ := LTree.firstPath_eq_concat hfirst
    have hne : dotted (q ++ [e.key]) ≠ [] := by
      intro hnil
      have hends := endsInKey_dotted q hkey
      rw [hnil, endsInKey_nil hkey] at hends
      cases hends
    simp only [Option.getD_some, if_neg hne, getParentKeyPath_dotted hkey, List.dropLast_concat]

end Load

/-! ## Loading a placeholder -/

section Placeholder

variable {R : EntityRegistry T D}
  {loadEntity : EStateM Exception (Entity T D) (Option (LTree Key (LoadCall C)))}

theorem getAggregatedMember_of_null {e m : Entity T D} {k : Key}
    (hnull : List.lookup k e.membersMap = some none) (hgen : R.generateEntity k = .ok m) :
    (getAggregatedMember R loadEntity k).run e =
      match loadEntity.run m with
      | .error err _ => .error err e
      | .ok calls m' => .ok (some m', calls) (e.setMembersMap (setIn k (some m') e.membersMap)) := by
  have hreg : R.hasRegisteredKey k = true := hasRegisteredKey_iff.mpr ⟨m, hgen⟩
  show getAggregatedMember R loadEntity k e = _
  unfold getAggregatedMember
  cases hload : loadEntity.run m with
  | error err m' => simp only [hnull, hreg, if_true, hgen, hload]
  | ok calls m' => simp only [hnull, hreg, if_true, hgen, hload]

/-- What a call of `GetAggregatedMember` has done when it returns: the member is there, or it is
null and its key is not registered, or it was loaded now, through a new entity. -/
theorem getAggregatedMember_cases {key : Key} {e e' : Entity T D}
    {r : Option (Entity T D) × Option (LTree Key (LoadCall C))}
    (hrun : (getAggregatedMember R loadEntity key).run e = .ok r e') :
    ((∃ m, List.lookup key e.membersMap = some (some m) ∧ r = (some m, none)) ∧ e' = e) ∨
      (List.lookup key e.membersMap = some none ∧ R.hasRegisteredKey key = false ∧
        r = (none, none) ∧ e' = e) ∨
      ∃ m calls m', List.lookup key e.membersMap = some none ∧ R.generateEntity key = .ok m ∧
        loadEntity.run m = .ok calls m' ∧ r = (some m', calls) ∧
        e' = e.setMembersMap (setIn key (some m') e.membersMap) := by
  rcases hlookup : List.lookup key e.membersMap with _ | _ | m
  · simp only [getAggregatedMember, EStateM.run, hlookup] at hrun
    cases hrun
  · right
    cases hreg : R.hasRegisteredKey key with
    | false =>
      simp only [getAggregatedMember, EStateM.run, hlookup, hreg] at hrun
      cases hrun
      exact .inl ⟨rfl, rfl, rfl, rfl⟩
    | true =>
      obtain ⟨m, hgen⟩ := hasRegisteredKey_iff.mp hreg
      rw [getAggregatedMember_of_null hlookup hgen] at hrun
      cases hload : loadEntity.run m with
      | error err m' =>
        rw [hload] at hrun
        cases hrun
      | ok calls m' =>
        rw [hload] at hrun
        cases hrun
        exact .inr ⟨m, calls, m', rfl, hgen, hload, rfl, rfl⟩
  · simp only [getAggregatedMember, EStateM.run, hlookup] at hrun
    cases hrun
    exact .inl ⟨⟨m, rfl, rfl⟩, rfl⟩

end Placeholder

end Azulejo
