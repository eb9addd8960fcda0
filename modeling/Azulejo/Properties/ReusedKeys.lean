import Azulejo.Entities.Copy
import Azulejo.Lib.Runs

/-!
# Keys that are used again

A key of an entity keeps the constructor of the first object that was aggregated under it:
`RemoveMember` leaves the constructor, and the next `AggregateMember` does not replace it. The
member that has the key when the entity is copied is copied by that constructor.
-/

namespace Azulejo

open AssocList Entity

variable {T D : Type}

/-- A call on an entity. The static type that an object is aggregated with is its dynamic type; a
null pointer has only a static one. -/
inductive MemberCall (T D : Type) where
  | aggregateMember (sharedObj : Entity T D)
  | aggregateNull (staticType : T)
  | removeKey (key : Key)
  | removeMember (sharedObj : Option (Entity T D))

namespace MemberCall

def call (e : Entity T D) : MemberCall T D → Except Exception (Entity T D)
  | .aggregateMember sharedObj => e.aggregateMember sharedObj.type (some sharedObj)
  | .aggregateNull staticType => e.aggregateMember staticType none
  | .removeKey key => e.removeKey key
  | .removeMember sharedObj => e.removeMember sharedObj

/-- One call, whose exception the caller handles. -/
def step (e : Entity T D) (c : MemberCall T D) : Entity T D :=
  match call e c with
  | .ok e' => e'
  | .error _ => e

end MemberCall

/-- The entry `q` of a copy has the key of the entry `p`, and an object with the dynamic type and
the data of the object there. -/
def SameMember (p q : Key × Option (Entity T D)) : Prop :=
  q.1 = p.1 ∧ ∃ m m', p.2 = some m ∧ q.2 = some m' ∧ m'.type = m.type ∧ m'.data = m.data

/-- The entity can be copied, and each member of the copy is as the member with its key. -/
def CopiesMembers (C : EntityClasses T D) (e : Entity T D) : Prop :=
  ∃ c, e.copyConstruct C = .ok c ∧ List.Forall₂ SameMember e.membersMap c.membersMap

/-- The class of the first object that the calls aggregate under a key. -/
def firstType : List (MemberCall T D) → Key → Option T
  | [], _ => none
  | .aggregateMember sharedObj :: calls, key =>
    if key = sharedObj.key then some sharedObj.type else firstType calls key
  | _ :: calls, key => firstType calls key

theorem firstType_append (calls more : List (MemberCall T D)) (key : Key) :
    firstType (calls ++ more) key = (firstType calls key).or (firstType more key) := by
  induction calls with
  | nil => rfl
  | cons c calls ih =>
    cases c with
    | aggregateMember sharedObj =>
      simp only [List.cons_append, firstType]
      split
      · rfl
      · exact ih
    | aggregateNull staticType => exact ih
    | removeKey k => exact ih
    | removeMember sharedObj => exact ih

/-! ## The members and their constructors -/

/-- After `calls` the members are there under their own keys, and the constructor of each key is
that of the first object it was used for. -/
structure KeepsFirst (calls : List (MemberCall T D)) (e : Entity T D) : Prop where
  members : ∀ p ∈ e.membersMap, ∃ m, p = (m.key, some m) ∧ m.key ≠ []
  constructors : ∀ key ≠ [], e.constructorOf key = firstType calls key
  used : ∀ key ∈ keys e.membersMap, firstType calls key ≠ none

theorem keepsFirst_new (key : Key) (type : T) (data : D) :
    KeepsFirst [] (mk key type data [] []) :=
  ⟨nofun, fun _ _ => rfl, nofun⟩

/-- A call that aggregates nothing and adds no member. -/
theorem KeepsFirst.of_subset {calls : List (MemberCall T D)} {e : Entity T D}
    (h : KeepsFirst calls e) {c : MemberCall T D} (hc : ∀ key, firstType [c] key = none)
    {membersMap : List (Key × Option (Entity T D))} (hsub : membersMap ⊆ e.membersMap) :
    KeepsFirst (calls ++ [c]) (e.setMembersMap membersMap) := by
  have hsame : ∀ key, firstType (calls ++ [c]) key = firstType calls key := by
    intro key
    rw [firstType_append, hc, Option.or_none]
  refine ⟨fun p hp => h.members p (hsub hp), fun key hkey => ?_, fun key hkey => ?_⟩
  · rw [hsame]
    exact h.constructors key hkey
  · rw [hsame]
    exact h.used key (List.map_subset Prod.fst hsub hkey)

theorem setMembersMap_self (e : Entity T D) : e.setMembersMap e.membersMap = e := by
  cases e
  rfl

/-- A refused call. -/
theorem KeepsFirst.refused {calls : List (MemberCall T D)} {e : Entity T D}
    (h : KeepsFirst calls e) {c : MemberCall T D} (hc : ∀ key, firstType [c] key = none) :
    KeepsFirst (calls ++ [c]) e := by
  have hkeeps := h.of_subset hc (List.Subset.refl e.membersMap)
  rwa [setMembersMap_self] at hkeeps

theorem firstType_aggregate (m : Entity T D) (key : Key) :
    firstType [MemberCall.aggregateMember m] key = if key = m.key then some m.type else none := rfl

/-- An object whose key is in use, or empty, is refused and changes no first object. -/
theorem KeepsFirst.aggregate_refused {calls : List (MemberCall T D)} {e m : Entity T D}
    (h : KeepsFirst calls e) (hrefused : m.key = [] ∨ m.key ∈ keys e.membersMap) :
    KeepsFirst (calls ++ [.aggregateMember m]) e := by
  have hsame : ∀ key ≠ [], firstType (calls ++ [.aggregateMember m]) key = firstType calls key := by
    intro key hkey
    rw [firstType_append, firstType_aggregate]
    by_cases hm : key = m.key
    · subst hm
      obtain ⟨type, htype⟩ := Option.ne_none_iff_exists'.mp
        (h.used m.key (hrefused.resolve_left hkey))
      rw [htype]
      rfl
    · rw [if_neg hm, Option.or_none]
  refine ⟨h.members, fun key hkey => ?_, fun key hmem => ?_⟩
  · rw [hsame key hkey]
    exact h.constructors key hkey
  · obtain ⟨p, hp, rfl⟩ := List.mem_map.mp hmem
    obtain ⟨m', rfl, hne⟩ := h.members p hp
    rw [hsame _ hne]
    exact h.used _ hmem

theorem KeepsFirst.aggregate {calls : List (MemberCall T D)} {e m : Entity T D}
    (h : KeepsFirst calls e) (hkey : m.key ≠ []) (hfree : m.key ∉ keys e.membersMap) :
    KeepsFirst (calls ++ [.aggregateMember m]) (withMember m.type m.key m e) := by
  constructor
  · intro p hp
    rw [membersMap_withMember, (insertSorted_perm hfree (some m)).mem_iff, List.mem_cons] at hp
    rcases hp with rfl | hp
    · exact ⟨m, rfl, hkey⟩
    · exact h.members p hp
  · intro key hne
    rw [constructorOf_withMember, h.constructors key hne, firstType_append, firstType_aggregate]
  · intro key hmem
    rw [membersMap_withMember, mem_keys_insertSorted] at hmem
    rw [firstType_append, firstType_aggregate]
    rcases hmem with rfl | hmem
    · rw [if_pos rfl]
      cases firstType calls m.key <;> simp
    · obtain ⟨type, htype⟩ := Option.ne_none_iff_exists'.mp (h.used key hmem)
      rw [htype]
      simp

/-- Each call keeps the members and the constructors so. -/
theorem KeepsFirst.step {calls : List (MemberCall T D)} {e : Entity T D}
    (h : KeepsFirst calls e) (c : MemberCall T D) : KeepsFirst (calls ++ [c]) (c.step e) := by
  unfold MemberCall.step
  cases c with
  | aggregateMember m =>
    cases hcall : MemberCall.call e (.aggregateMember m) with
    | ok e' =>
      obtain ⟨hkey, hfree, rfl⟩ := aggregateMember_eq_ok.mp hcall
      exact h.aggregate hkey hfree
    | error ex =>
      apply h.aggregate_refused
      by_contra hgood
      obtain ⟨hkey, hfree⟩ := not_or.mp hgood
      have hok : MemberCall.call e (.aggregateMember m) =
          .ok (withMember m.type m.key m e) := aggregateMember_eq_ok.mpr ⟨hkey, hfree, rfl⟩
      cases hok.symm.trans hcall
  | aggregateNull staticType => exact h.refused fun _ => rfl
  | removeKey key =>
    cases hcall : MemberCall.call e (.removeKey key) with
    | ok e' =>
      rw [removeKey_eq_ok hcall]
      exact h.of_subset (fun _ => rfl) (List.filter_subset_self _)
    | error ex => exact h.refused fun _ => rfl
  | removeMember sharedObj =>
    cases hcall : MemberCall.call e (.removeMember sharedObj) with
    | ok e' =>
      obtain ⟨key, rfl⟩ := removeMember_eq_ok hcall
      exact h.of_subset (fun _ => rfl) (List.filter_subset_self _)
    | error ex => exact h.refused fun _ => rfl

theorem KeepsFirst.run {calls : List (MemberCall T D)} {e : Entity T D}
    (h : KeepsFirst calls e) (more : List (MemberCall T D)) :
    KeepsFirst (calls ++ more) (Runs.run MemberCall.step e more) := by
  induction more generalizing calls e with
  | nil => rwa [List.append_nil]
  | cons c more ih =>
    have hrest := ih (h.step c)
    rwa [List.append_assoc] at hrest

/-! ## The copy -/

variable {C : EntityClasses T D}

/-- The loop of the copy constructor makes members of the same classes exactly if each has the
constructor of its dynamic type and can be copied itself. -/
theorem copyMembers_same_iff {ctors : List (Key × T)} {members : List (Key × Option (Entity T D))} :
    (∃ copies, copyMembers C ctors members = .ok copies ∧
      List.Forall₂ SameMember members copies) ↔
      ∀ p ∈ members, ∃ m, p.2 = some m ∧ m.key ≠ [] ∧
        List.lookup m.key ctors = some m.type ∧ m.CanCopy C := by
  induction members with
  | nil => exact ⟨fun _ => nofun, fun _ => ⟨[], rfl, List.Forall₂.nil⟩⟩
  | cons p members ih =>
    obtain ⟨key, pointer⟩ := p
    rw [List.forall_mem_cons, ← ih]
    cases pointer with
    | none =>
      refine iff_of_false ?_ ?_
      · rintro ⟨copies, hcopies, -⟩
        cases hcopies
      · rintro ⟨⟨m, hm, -⟩, -⟩
        cases hm
    | some m =>
      constructor
      · rintro ⟨copies, hcopies, hsame⟩
        obtain ⟨hkey, staticType, m', members', hlookup, hm', hmembers', rfl⟩ :=
          copyMembers_cons_eq_ok.mp hcopies
        obtain ⟨hhead, htail⟩ := List.forall₂_cons.mp hsame
        obtain ⟨-, m₁, m₂, hm₁, hm₂, htype, -⟩ := hhead
        cases hm₁
        cases hm₂
        -- the class of the copy is that of the constructor
        obtain ⟨-, inner, -, rfl⟩ := constructAs_eq_ok.mp hm'
        obtain ⟨-, hcan⟩ := (exists_constructAs_iff m staticType).mp ⟨_, hm'⟩
        rw [show staticType = m.type from htype] at hlookup
        exact ⟨⟨m, rfl, hkey, hlookup, hcan⟩, members', hmembers', htail⟩
      · rintro ⟨⟨m₁, hm₁, hkey, hlookup, hcan⟩, members', hmembers', htail⟩
        cases hm₁
        obtain ⟨m', hm'⟩ := (exists_constructAs_iff m m.type).mpr ⟨C.derivesFrom_self _, hcan⟩
        refine ⟨(key, some m') :: members', copyMembers_cons_eq_ok.mpr
          ⟨hkey, m.type, m', members', hlookup, hm', hmembers', rfl⟩, ?_⟩
        obtain ⟨-, inner, -, rfl⟩ := constructAs_eq_ok.mp hm'
        exact List.Forall₂.cons ⟨rfl, m, _, rfl, rfl, rfl, C.slice_self _ _⟩ htail

theorem copiesMembers_iff_constructors {e : Entity T D} :
    CopiesMembers C e ↔ ∀ p ∈ e.membersMap, ∃ m, p.2 = some m ∧ m.key ≠ [] ∧
      e.constructorOf m.key = some m.type ∧ m.CanCopy C := by
  unfold constructorOf
  rw [← copyMembers_same_iff]
  constructor
  · rintro ⟨c, hc, hsame⟩
    obtain ⟨-, members, hmembers, rfl⟩ := constructAs_eq_ok.mp hc
    exact ⟨members, hmembers, hsame⟩
  · rintro ⟨members, hmembers, hsame⟩
    exact ⟨_, constructAs_eq_ok.mpr ⟨C.derivesFrom_self _, members, hmembers, rfl⟩, hsame⟩

/-- An entity after calls of `AggregateMember` and `RemoveMember`. -/
def afterCalls (key : Key) (type : T) (data : D) (calls : List (MemberCall T D)) : Entity T D :=
  Runs.run MemberCall.step (mk key type data [] []) calls

theorem keepsFirst_afterCalls (key : Key) (type : T) (data : D) (calls : List (MemberCall T D)) :
    KeepsFirst calls (afterCalls key type data calls) :=
  (keepsFirst_new key type data).run calls

/-- After any calls the entity is copied with its members exactly if each of these is of the class
of the first object that was aggregated under its key, and can be copied itself. -/
theorem copiesMembers_iff (C : EntityClasses T D) (key : Key) (type : T) (data : D)
    (calls : List (MemberCall T D)) :
    CopiesMembers C (afterCalls key type data calls) ↔
      ∀ p ∈ (afterCalls key type data calls).membersMap, ∀ m, p.2 = some m →
        firstType calls m.key = some m.type ∧ m.CanCopy C := by
  have hkeeps := keepsFirst_afterCalls key type data calls
  rw [copiesMembers_iff_constructors]
  constructor
  · intro h p hp m hm
    obtain ⟨m', hm', hkey, hctor, hcan⟩ := h p hp
    obtain rfl : m' = m := Option.some.inj (hm'.symm.trans hm)
    rw [hkeeps.constructors _ hkey] at hctor
    exact ⟨hctor, hcan⟩
  · intro h p hp
    obtain ⟨m, rfl, hkey⟩ := hkeeps.members p hp
    obtain ⟨hfirst, hcan⟩ := h _ hp m rfl
    exact ⟨m, rfl, hkey, (hkeeps.constructors _ hkey).trans hfirst, hcan⟩

/-- At every depth, too, the copy is the same tree exactly if each member is of the class of the
first object under its key and its own members have the constructors of their dynamic types. -/
theorem copies_same_tree_iff (C : EntityClasses T D) (key : Key) (type : T) (data : D)
    (calls : List (MemberCall T D)) :
    (∃ c, (afterCalls key type data calls).copyConstruct C = .ok c ∧
        SameTree c (afterCalls key type data calls)) ↔
      ∀ p ∈ (afterCalls key type data calls).membersMap, ∀ m, p.2 = some m →
        firstType calls m.key = some m.type ∧ m.Typed := by
  have hkeeps := keepsFirst_afterCalls key type data calls
  rw [copyConstruct_same_iff, typed_eq, membersTyped_iff]
  constructor
  · intro h p hp m hm
    obtain ⟨m', hm', hkey, hctor, htyped⟩ := h p hp
    obtain rfl : m' = m := Option.some.inj (hm'.symm.trans hm)
    rw [hkeeps.constructors _ hkey] at hctor
    exact ⟨hctor, htyped⟩
  · intro h p hp
    obtain ⟨m, rfl, hkey⟩ := hkeeps.members p hp
    obtain ⟨hfirst, htyped⟩ := h _ hp m rfl
    exact ⟨m, rfl, hkey, (hkeeps.constructors _ hkey).trans hfirst, htyped⟩

/-- Two classes, neither derived from the other. -/
def twoClasses : EntityClasses Bool Nat where
  derivesFrom t s := t == s
  derivesFrom_self t := beq_self_eq_true t
  slice _ _ d := d
  slice_self _ _ := rfl

/-- The key of a member that was removed is used for an object of the other class. -/
def reusedKey : List (MemberCall Bool Nat) :=
  [.aggregateMember (mk "k".toList true 1 [] []), .removeKey "k".toList,
    .aggregateMember (mk "k".toList false 2 [] [])]

/-- The constructor of the first object cannot cast the second one. -/
theorem reused_key_not_copied :
    (afterCalls [] true 0 reusedKey).copyConstruct twoClasses = .error badCast ∧
      ¬ ∀ calls, CopiesMembers twoClasses (afterCalls [] true 0 calls) := by
  have hcopy : (afterCalls [] true 0 reusedKey).copyConstruct twoClasses = .error badCast := rfl
  refine ⟨hcopy, fun h => ?_⟩
  obtain ⟨c, hc, -⟩ := h reusedKey
  rw [hcopy] at hc
  cases hc

end Azulejo
