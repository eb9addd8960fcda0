import Azulejo.DatabaseAdapters.EntityAdapters
import Azulejo.FilesystemAdapters.EntityAdapters
import Azulejo.Properties.CopySeparation

/-!
# What a copy is saved as

`Serialize` and `Persist` read the keys, the classes and the data of a tree, and not its
constructors, which a copy has not got. A copy is saved as the tree it was made of, also when the
program has gone on to change that one.
-/

namespace Azulejo

open AssocList Stateful

variable {T D : Type}

/-! ## Saving reads no constructors -/

section Save

variable {C W : Type} (P : PtreePaths) (A : Adapter T D C) (target : Path → Str → C)
  (finish : EStateM Exception (SaveState W) Unit)

mutual
theorem saveWithParentKey_bare : ∀ (e : Entity T D) (parentKey : Str),
    saveWithParentKey P A target finish e.bare parentKey =
      saveWithParentKey P A target finish e parentKey
  | .mk key type data membersMap _, parentKey => by
    rw [Entity.bare]
    simp only [saveWithParentKey, saveMembers_bare membersMap]
theorem saveMembers_bare : ∀ (members : List (Key × Option (Entity T D))) (searchPath : Str),
    saveMembers P A target finish (Entity.bareMembers members) searchPath =
      saveMembers P A target finish members searchPath
  | [], _ => by rw [Entity.bareMembers]
  | (_, none) :: members, searchPath => by
    rw [Entity.bareMembers, saveMembers, saveMembers, saveMembers_bare members searchPath]
  | (key, some m) :: members, searchPath => by
    have htype : m.bare.type = m.type := by
      rw [Entity.bare_eq]
      rfl
    rw [Entity.bareMembers, saveMembers, saveMembers, htype, saveWithParentKey_bare m searchPath,
      saveMembers_bare members searchPath]
end

end Save

/-- Both adapters do the same with the two entities, whatever the state of the hierarchy, of the
files and of the database: the same calls of `Save`, the same writes and the same exceptions. -/
structure SavedAlike (e e' : Entity T D) : Prop where
  serialize : ∀ (P : PtreePaths) (A : Adapter T D Path) (J : Json),
    EntitySerializer.serialize P A J e = EntitySerializer.serialize P A J e'
  persist : ∀ (P : PtreePaths) (A : Adapter T D Unit) (J : Json) (E : SqliteEngine)
    (crc : List UInt8 → UInt32),
    EntityPersister.persist P A J E crc e = EntityPersister.persist P A J E crc e'

/-- Entities that are the same tree are saved alike. -/
theorem savedAlike_of_sameTree {e e' : Entity T D} (h : e.SameTree e') : SavedAlike e e' := by
  have hbare : e.bare = e'.bare := h
  have hkey : e.key = e'.key := by
    rw [Entity.bare_eq, Entity.bare_eq] at hbare
    injection hbare
  constructor
  · intro P A J
    unfold EntitySerializer.serialize EntitySerializer.serializeWithParentKey
    rw [hkey, ← saveWithParentKey_bare, hbare, saveWithParentKey_bare]
  · intro P A J E crc
    unfold EntityPersister.persist EntityPersister.persistWithParentKey
    rw [hkey, ← saveWithParentKey_bare, hbare, saveWithParentKey_bare]

/-! ## Trees in a region that is left alone -/

namespace Heap

variable {heap heap' : Heap T D} {region region' : Nat → Prop}

mutual
/-- The objects at and below the root of a tree lie in each closed region with the root. -/
theorem Represents.within (hclosed : heap.HoldsOnly region' region') :
    ∀ {e : Entity T D} {a : Nat}, Represents heap region e a → region' a →
      Represents heap region' e a
  | .mk key type data membersMap ctors, a, h, ha => by
    rw [Represents] at h ⊢
    obtain ⟨-, object, hobject, hfits, hmembers⟩ := h
    exact ⟨ha, object, hobject, hfits, RepresentsAll.within hclosed hmembers fun key b hmem =>
      hclosed a b ha ⟨object, hobject, key, hmem⟩⟩
theorem RepresentsAll.within (hclosed : heap.HoldsOnly region' region') :
    ∀ {members : List (Key × Option (Entity T D))} {pointers : List (Key × Option Nat)},
      RepresentsAll heap region members pointers →
      (∀ key b, (key, some b) ∈ pointers → region' b) →
      RepresentsAll heap region' members pointers
  | [], _, h, _ => by
    rw [RepresentsAll] at h ⊢
    exact h
  | (key, none) :: members, _, h, hregion => by
    rw [RepresentsAll] at h ⊢
    obtain ⟨rest, rfl, hrest⟩ := h
    exact ⟨rest, rfl, RepresentsAll.within hclosed hrest fun k b hmem =>
      hregion k b (List.mem_cons_of_mem _ hmem)⟩
  | (key, some m) :: members, _, h, hregion => by
    rw [RepresentsAll] at h ⊢
    obtain ⟨a, rest, rfl, hm, hrest⟩ := h
    exact ⟨a, rest, rfl, Represents.within hclosed hm (hregion key a List.mem_cons_self),
      RepresentsAll.within hclosed hrest fun k b hmem =>
        hregion k b (List.mem_cons_of_mem _ hmem)⟩
end

mutual
/-- When the region of a tree is left alone, it is the same tree afterwards, but for the
constructors. -/
theorem Represents.keptIn (h : KeptIn region heap heap') (hheap' : heap'.WellFormed) :
    ∀ {e : Entity T D} {a : Nat}, Represents heap region e a →
      ∃ e', Represents heap' region e' a ∧ e'.SameTree e
  | .mk key type data membersMap ctors, a, he => by
    rw [Represents] at he
    obtain ⟨ha, object, hobject, hfits, hmembers⟩ := he
    obtain ⟨constructors, -, hobject'⟩ := h a object ha hobject
    obtain ⟨members', hmembers', hbare⟩ := RepresentsAll.keptIn h hheap' hmembers
    have hsorted := (hheap'.get hobject').constructors
    refine ⟨.mk key type data members' (Object.constructors
      { object with keyToEntityConstructorMap := constructors }), ?_, ?_⟩
    · rw [Represents]
      exact ⟨ha, _, hobject', ⟨hfits.key, hfits.type, hfits.data, rfl, hsorted.nodup⟩,
        hmembers'⟩
    · rw [Entity.SameTree, Entity.bare, Entity.bare, hbare]
theorem RepresentsAll.keptIn (h : KeptIn region heap heap') (hheap' : heap'.WellFormed) :
    ∀ {members : List (Key × Option (Entity T D))} {pointers : List (Key × Option Nat)},
      RepresentsAll heap region members pointers →
      ∃ members', RepresentsAll heap' region members' pointers ∧
        Entity.bareMembers members' = Entity.bareMembers members
  | [], pointers, hmembers => by
    refine ⟨[], ?_, rfl⟩
    rw [RepresentsAll] at hmembers ⊢
    exact hmembers
  | (key, none) :: members, _, hmembers => by
    rw [RepresentsAll] at hmembers
    obtain ⟨rest, rfl, hrest⟩ := hmembers
    obtain ⟨rest', hrest', hbare⟩ := RepresentsAll.keptIn h hheap' hrest
    refine ⟨(key, none) :: rest', ?_, ?_⟩
    · rw [RepresentsAll]
      exact ⟨rest, rfl, hrest'⟩
    · rw [Entity.bareMembers, Entity.bareMembers, hbare]
  | (key, some m) :: members, _, hmembers => by
    rw [RepresentsAll] at hmembers
    obtain ⟨a, rest, rfl, hm, hrest⟩ := hmembers
    obtain ⟨m', hm', hsame⟩ := Represents.keptIn h hheap' hm
    obtain ⟨rest', hrest', hbare⟩ := RepresentsAll.keptIn h hheap' hrest
    refine ⟨(key, some m') :: rest', ?_, ?_⟩
    · rw [RepresentsAll]
      exact ⟨a, rest, rfl, hm', hrest'⟩
    · rw [Entity.bareMembers, Entity.bareMembers, hbare, hsame]
end

/-- A tree whose objects no call is made to change stays the same. -/
theorem Represents.run (C : EntityClasses T D) (hheap : heap.WellFormed) {e : Entity T D} {a : Nat}
    (he : Represents heap region e a) (calls : List (ObjectCall T D))
    (hcalls : ∀ c ∈ calls, ∀ x ∈ c.changed, ¬ AtOrBelow heap a x) :
    ∃ e', Represents (Runs.run (ObjectCall.step C) heap calls) (fun _ => True) e' a ∧
      e'.SameTree e := by
  have hwithin := he.within (holdsOnly_atOrBelow heap a) .refl
  have hheap' : WellFormed (Runs.run (ObjectCall.step C) heap calls) :=
    Runs.invariant_of_forall WellFormed
      (fun _ c h => ObjectCall.step_wellFormed C h c) hheap calls
  obtain ⟨e', he', hsame⟩ := hwithin.keptIn (ObjectCall.run_keptIn C hheap calls hcalls) hheap'
  exact ⟨e', he'.transport fun _ _ _ hobject => ⟨trivial, hobject⟩, hsame⟩

end Heap

open Heap ObjectCall

/-- In every heap that a program reaches: when the copy constructor returns for the object of a tree
whose members have constructors of their own classes, the tree and the copy have no object in
common. Whatever calls follow, the copy is saved, by either adapter and in every state, as the tree
was when it was copied, while no call changes an object at or below the copy; and the tree is saved
so while no call changes an object at or below it. -/
theorem copies_are_saved_as_copied (C : EntityClasses T D) (before : List (ObjectCall T D))
    {depth source copy : Nat} {e : Entity T D} {heap' : Heap T D}
    (he : Heap.Represents (Runs.run (step C) [] before) (fun _ => True) e source) (htyped : e.Typed)
    (h : (constructAs C depth e.type source).run (Runs.run (step C) [] before) = .ok copy heap') :
    (∀ x, AtOrBelow heap' source x → ¬ AtOrBelow heap' copy x) ∧
      ∀ after : List (ObjectCall T D),
        ((∀ c ∈ after, ∀ x ∈ c.changed, ¬ AtOrBelow heap' copy x) →
          ∃ c, Heap.Represents (Runs.run (step C) heap' after) (fun _ => True) c copy ∧
            SavedAlike c e) ∧
        ((∀ c ∈ after, ∀ x ∈ c.changed, ¬ AtOrBelow heap' source x) →
          ∃ e', Heap.Represents (Runs.run (step C) heap' after) (fun _ => True) e' source ∧
            SavedAlike e' e) := by
  generalize hheap : Runs.run (step C) [] before = heap at he h
  have hwf : heap.WellFormed := hheap ▸ run_wellFormed C before
  obtain ⟨⟨hwf', hstart, -⟩, hnew, hold⟩ := constructAs_apart C hwf h
  obtain ⟨-, object, hobject, -⟩ := represents_iff.mp he
  have hlt : source < heap.length := (List.getElem?_eq_some_iff.mp hobject).1
  refine ⟨fun x hx hcopy => absurd (hold.atOrBelow hlt hx) (Nat.not_lt.mpr (hnew x hcopy)),
    fun after => ⟨fun hafter => ?_, fun hafter => ?_⟩⟩
  · obtain ⟨c, hc, -, hrep⟩ := he.constructAs h
    obtain rfl : e.bare = c := Except.ok.inj ((Entity.copyConstruct_of_typed htyped).symm.trans hc)
    obtain ⟨c', hc', hsame⟩ := hrep.run C hwf' after hafter
    exact ⟨c', hc', savedAlike_of_sameTree (hsame.trans (Entity.bare_bare e))⟩
  · obtain ⟨e', he', hsame⟩ :=
      (he.of_isPrefix hstart fun _ => id).run C hwf' after hafter
    exact ⟨e', he', savedAlike_of_sameTree hsame⟩

/-- The tree of `oneMember`. -/
def oneMemberTree : Entity Unit Unit :=
  .mk "s".toList () () [("m".toList, some (.mk "m".toList () () [] []))] [("m".toList, ())]

theorem oneMember_represents :
    Heap.Represents (Runs.run (step oneClass) [] oneMember) (fun _ => True) oneMemberTree 0 := by
  have hmember : Heap.Represents (Runs.run (step oneClass) [] oneMember) (fun _ => True)
      (.mk "m".toList () () [] []) 1 := by
    rw [Heap.Represents]
    exact ⟨trivial, _, rfl, ⟨rfl, rfl, rfl, rfl, List.nodup_nil⟩, rfl⟩
  rw [oneMemberTree, Heap.Represents]
  refine ⟨trivial, _, rfl, ⟨rfl, rfl, rfl, rfl, List.nodup_singleton _⟩, ?_⟩
  exact ⟨1, [], rfl, hmember, rfl⟩

/-- The member gets another key and is removed; the copy is saved with the member as it was. -/
theorem copies_are_saved_as_copied_memberRemoved :
    ∃ heap', (constructAs oneClass 2 () 0).run (Runs.run (step oneClass) [] oneMember) =
        .ok 3 heap' ∧
      ∃ c, Heap.Represents (Runs.run (step oneClass) heap'
          [.setKey 1 "n".toList, .removeKey 0 "m".toList]) (fun _ => True) c 3 ∧
        SavedAlike c oneMemberTree := by
  refine ⟨_, rfl, ?_⟩
  have htyped : oneMemberTree.Typed := by
    rw [oneMemberTree, Entity.Typed]
    exact ⟨⟨by decide, rfl, trivial⟩, trivial⟩
  obtain ⟨hapart, hruns⟩ := @copies_are_saved_as_copied _ _ oneClass oneMember 2 0 3
    oneMemberTree _ oneMember_represents htyped rfl
  refine (hruns _).1 fun c hc x hx => hapart x ?_
  rcases List.mem_pair.mp hc with rfl | rfl
  · cases hx
    exact .single ⟨_, rfl, "m".toList, List.mem_cons_self⟩
  · cases hx
    exact .refl

end Azulejo
