import Azulejo.Entities.Copy

/-!
# Copies of copies

The constructors an entity has for its members are not copied with it: an object made by the copy
constructor has none, and one that is assigned to keeps its own. `copies_same_iff` says which chains
of copies this leaves intact.
-/

namespace Azulejo

open AssocList Entity

variable {T D : Type}

/-! ## Building entity trees -/

/-- The entity trees that `AggregateMember<T>` builds, `T` being the dynamic type of each member. -/
inductive Built : Entity T D → Prop
  | new (key : Key) (type : T) (data : D) : Built (.mk key type data [] [])
  | aggregate {e m e' : Entity T D} (he : Built e) (hm : Built m)
      (h : e.aggregateMember m.type (some m) = .ok e') : Built e'

/-- Each member is there under its own key with the constructor of its type, and there are no other
constructors. -/
structure KeptInStep (e : Entity T D) : Prop where
  members : ∀ p ∈ e.membersMap, ∃ m, p = (m.key, some m) ∧ m.key ≠ [] ∧
    List.lookup m.key e.keyToEntityConstructorMap = some m.type ∧ m.Typed
  constructors : ∀ key ∈ keys e.keyToEntityConstructorMap, key ∈ keys e.membersMap

theorem KeptInStep.typed {e : Entity T D} (h : KeptInStep e) : e.Typed := by
  rw [typed_eq, membersTyped_iff]
  intro p hp
  obtain ⟨m, rfl, hkey, hlookup, htyped⟩ := h.members p hp
  exact ⟨m, rfl, hkey, hlookup, htyped⟩

theorem keyToEntityConstructorMap_withMember {staticType : T} {key : Key} {m e : Entity T D}
    (h : key ∉ keys e.keyToEntityConstructorMap) :
    (withMember staticType key m e).keyToEntityConstructorMap =
      insertSorted key staticType e.keyToEntityConstructorMap := by
  obtain ⟨k, type, data, members, ctors⟩ := e
  have hnone : List.lookup key ctors = none := lookup_none.mpr h
  simp only [withMember, setMembersMap, registerEntityConstructor, keyToEntityConstructorMap_mk,
    hnone]

theorem KeptInStep.withMember {e m : Entity T D} (h : KeptInStep e) (hkey : m.key ≠ [])
    (hfree : m.key ∉ keys e.membersMap) (hm : m.Typed) :
    KeptInStep (withMember m.type m.key m e) := by
  have hctor : m.key ∉ keys e.keyToEntityConstructorMap := mt (h.constructors m.key) hfree
  constructor
  · intro p hp
    rw [membersMap_withMember, (insertSorted_perm hfree (some m)).mem_iff, List.mem_cons] at hp
    rw [keyToEntityConstructorMap_withMember hctor]
    rcases hp with rfl | hp
    · exact ⟨m, rfl, hkey, lookup_insertSorted_self _ _ _, hm⟩
    · obtain ⟨m', rfl, hkey', hlookup, htyped⟩ := h.members p hp
      have hne : m'.key ≠ m.key := by
        intro heq
        apply hfree
        rw [← heq]
        exact mem_keys_of_mem hp
      exact ⟨m', rfl, hkey', by rw [lookup_insertSorted_ne hne, hlookup], htyped⟩
  · intro key hmem
    rw [keyToEntityConstructorMap_withMember hctor, mem_keys_insertSorted] at hmem
    rw [membersMap_withMember, mem_keys_insertSorted]
    exact hmem.imp_right (h.constructors key)

theorem Built.keptInStep {e : Entity T D} (h : Built e) : KeptInStep e := by
  induction h with
  | new key type data => exact ⟨nofun, nofun⟩
  | aggregate he hm h ihe ihm =>
    obtain ⟨hkey, hfree, rfl⟩ := aggregateMember_eq_ok.mp h
    exact ihe.withMember hkey hfree ihm.typed

/-! ## Chains of copies -/

/-- A copy is made by the copy constructor, or by assignment into an object that exists. -/
inductive CopyStep (T D : Type) where
  | construct
  | assign (target : Entity T D)

namespace CopyStep

variable (C : EntityClasses T D)

def run (e : Entity T D) : CopyStep T D → Except Exception (Entity T D)
  | construct => e.copyConstruct C
  | assign target => copyAssign C target e

/-- The object that is assigned to is of the class of the entity. -/
def Fits (e : Entity T D) : CopyStep T D → Prop
  | construct => True
  | assign target => target.type = e.type

/-- The constructors the copy has afterwards. -/
def constructors : CopyStep T D → List (Key × T)
  | construct => []
  | assign target => target.keyToEntityConstructorMap

/-- The copy has constructors for its members, and these have no members themselves. -/
def LeavesCopyable (e : Entity T D) (step : CopyStep T D) : Prop :=
  ∀ p ∈ e.membersMap, ∀ m, p.2 = some m →
    List.lookup m.key step.constructors = some m.type ∧ m.membersMap = []

end CopyStep

/-- Each copy of the chain is made of the one before it; the first is made of `e`. -/
def copies (C : EntityClasses T D) (e : Entity T D) :
    List (CopyStep T D) → Except Exception (List (Entity T D))
  | [] => pure []
  | step :: steps => do
    let c ← step.run C e
    let cs ← copies C c steps
    pure (c :: cs)

variable {C : EntityClasses T D}

theorem copies_cons_eq_ok {e : Entity T D} {step : CopyStep T D} {steps : List (CopyStep T D)}
    {cs : List (Entity T D)} :
    copies C e (step :: steps) = .ok cs ↔
      ∃ c cs', step.run C e = .ok c ∧ copies C c steps = .ok cs' ∧ cs = c :: cs' := by
  rw [copies, bind_eq_ok]
  constructor
  · rintro ⟨c, hc, hrest⟩
    obtain ⟨cs', hcs', ⟨rfl⟩⟩ := bind_eq_ok.mp hrest
    exact ⟨c, cs', hc, hcs', rfl⟩
  · rintro ⟨c, cs', hc, hcs', rfl⟩
    exact ⟨c, hc, bind_eq_ok.mpr ⟨cs', hcs', rfl⟩⟩

/-- What the copy of an entity that can be copied looks like. -/
theorem run_of_typed {e : Entity T D} {step : CopyStep T D} (h : e.Typed) (hfits : step.Fits e) :
    step.run C e = .ok (.mk e.key e.type e.data (bareMembers e.membersMap) step.constructors) := by
  cases step with
  | construct =>
    rw [CopyStep.run, copyConstruct_of_typed h, bare_eq]
    rfl
  | assign target => exact copyAssign_of_typed h hfits

/-- A step that makes the same tree was made of an entity that can be copied. -/
theorem typed_of_run_same {e c : Entity T D} {step : CopyStep T D} (h : step.run C e = .ok c)
    (hsame : SameTree c e) : e.Typed := by
  cases step with
  | construct => exact copyConstruct_same_iff.mp ⟨c, h, hsame⟩
  | assign target =>
    obtain ⟨members, hmembers, rfl⟩ := copyAssign_eq_ok.mp h
    rw [SameTree, bare, bare_eq, bareMembers_of_copyMembers e.membersMap hmembers] at hsame
    injection hsame with _ _ _ hsame
    subst hsame
    rw [typed_eq]
    exact (copyMembers_eq_bare e.membersMap _).mp hmembers

/-- The members of a copy have no constructors: they can be copied only when they have no members
either. -/
theorem typed_bare_iff {e : Entity T D} : e.bare.Typed ↔ e.membersMap = [] := by
  rw [bare_eq, typed_eq, membersTyped_iff]
  constructor
  · intro h
    cases hmembers : e.membersMap with
    | nil => rfl
    | cons p members =>
      have hmem : (p.1, p.2.map bare) ∈ bareMembers e.membersMap := by
        rw [bareMembers_eq_map, hmembers]
        exact List.mem_cons_self
      obtain ⟨_, _, _, hlookup, _⟩ := h _ hmem
      cases hlookup
  · intro h p hp
    rw [h] at hp
    cases hp

/-- Whether the copy can be copied in turn. -/
theorem typed_copy_iff {e : Entity T D} (h : e.Typed) (step : CopyStep T D) :
    (Entity.mk e.key e.type e.data (bareMembers e.membersMap) step.constructors).Typed ↔
      step.LeavesCopyable e := by
  rw [typed_eq, membersTyped_iff] at h
  rw [typed_eq, membersTyped_iff]
  constructor
  · intro hcopy p hp m hm
    have hmem : (p.1, p.2.map bare) ∈ bareMembers e.membersMap := by
      rw [bareMembers_eq_map]
      exact List.mem_map_of_mem hp
    obtain ⟨m', hm', -, hlookup, htyped⟩ := hcopy _ hmem
    rw [hm] at hm'
    cases hm'
    rw [bare_eq] at hlookup
    exact ⟨hlookup, typed_bare_iff.mp htyped⟩
  · intro hleaves q hq
    rw [membersMap_mk, bareMembers_eq_map] at hq
    obtain ⟨p, hp, rfl⟩ := List.mem_map.mp hq
    obtain ⟨m, hm, hkey, -, -⟩ := h p hp
    obtain ⟨hlookup, hnone⟩ := hleaves p hp m hm
    refine ⟨m.bare, by rw [hm]; rfl, ?_, ?_, typed_bare_iff.mpr hnone⟩
    · rw [bare_eq]
      exact hkey
    · rw [bare_eq]
      exact hlookup

theorem leavesCopyable_bare {e : Entity T D} {step : CopyStep T D} :
    step.LeavesCopyable e.bare ↔ step.LeavesCopyable e := by
  unfold CopyStep.LeavesCopyable
  rw [bare_eq, membersMap_mk, bareMembers_eq_map, List.forall_mem_map]
  refine forall₂_congr fun p _ => ?_
  constructor
  · intro h m hm
    have hbare := h m.bare (by rw [hm]; rfl)
    rw [bare_eq] at hbare
    exact ⟨hbare.1, bareMembers_eq_nil.mp hbare.2⟩
  · intro h m' hm'
    obtain ⟨m, hm, rfl⟩ := Option.map_eq_some_iff.mp hm'
    rw [bare_eq]
    exact ⟨(h m hm).1, bareMembers_eq_nil.mpr (h m hm).2⟩

/-- What a step leaves copyable depends on the tree alone. -/
theorem leavesCopyable_congr {e c : Entity T D} (hsame : SameTree c e) (step : CopyStep T D) :
    step.LeavesCopyable c ↔ step.LeavesCopyable e := by
  rw [← leavesCopyable_bare, hsame, leavesCopyable_bare]

/-- A chain of copies of an entity that can be copied gives the same tree each time exactly when
every copy but the last leaves a copy that can be copied. -/
theorem copies_same_of_typed {e : Entity T D} (h : e.Typed) {steps : List (CopyStep T D)}
    (hfits : ∀ step ∈ steps, step.Fits e) :
    (∃ cs, copies C e steps = .ok cs ∧ ∀ c ∈ cs, SameTree c e) ↔
      ∀ step ∈ steps.dropLast, step.LeavesCopyable e := by
  induction steps generalizing e with
  | nil =>
    refine ⟨fun _ step hstep => ?_, fun _ => ⟨[], rfl, List.forall_mem_nil _⟩⟩
    cases hstep
  | cons step steps ih =>
    have hrun := run_of_typed (C := C) h (hfits step List.mem_cons_self)
    generalize hcopy : Entity.mk e.key e.type e.data (bareMembers e.membersMap)
      step.constructors = c at hrun
    have hsame : SameTree c e := by
      rw [← hcopy, SameTree, bare, bareMembers_bareMembers, bare_eq]
    have htype : c.type = e.type := by
      rw [← hcopy]
      rfl
    have htyped : c.Typed ↔ step.LeavesCopyable e := by
      rw [← hcopy]
      exact typed_copy_iff h step
    cases steps with
    | nil =>
      refine ⟨fun _ => List.forall_mem_nil _, fun _ => ⟨[c], ?_, ?_⟩⟩
      · exact copies_cons_eq_ok.mpr ⟨c, [], hrun, rfl, rfl⟩
      · intro c' hc'
        rw [List.mem_singleton.mp hc']
        exact hsame
    | cons next steps =>
      have hfits' : ∀ s ∈ next :: steps, s.Fits c := by
        intro s hs
        have hs' := hfits s (List.mem_cons_of_mem step hs)
        cases s with
        | construct => trivial
        | assign target => exact hs'.trans htype.symm
      rw [List.dropLast_cons_cons, List.forall_mem_cons]
      constructor
      · rintro ⟨cs, hcs, hall⟩
        obtain ⟨c', cs', hc', hrest, rfl⟩ := copies_cons_eq_ok.mp hcs
        obtain rfl : c = c' := Except.ok.inj (hrun.symm.trans hc')
        -- the next copy is the same tree too, so this one could be copied
        obtain ⟨d, ds, hd, -, rfl⟩ := copies_cons_eq_ok.mp hrest
        have hdsame : SameTree d e := hall d (List.mem_cons_of_mem c List.mem_cons_self)
        have hctyped : c.Typed := typed_of_run_same hd (hdsame.trans hsame.symm)
        refine ⟨htyped.mp hctyped, fun s hs => (leavesCopyable_congr hsame s).mp ?_⟩
        refine (ih hctyped hfits').mp ⟨d :: ds, hrest, fun x hx => ?_⟩ s hs
        exact (hall x (List.mem_cons_of_mem c hx)).trans hsame.symm
      · rintro ⟨hstep, hsteps⟩
        have hsteps' : ∀ s ∈ (next :: steps).dropLast, s.LeavesCopyable c :=
          fun s hs => (leavesCopyable_congr hsame s).mpr (hsteps s hs)
        obtain ⟨cs, hcs, hall⟩ := (ih (htyped.mpr hstep) hfits').mpr hsteps'
        refine ⟨c :: cs, copies_cons_eq_ok.mpr ⟨c, cs, hrun, hcs, rfl⟩, fun x hx => ?_⟩
        rcases List.mem_cons.mp hx with rfl | hx
        · exact hsame
        · exact (hall x hx).trans hsame

/-- The same for the trees that `AggregateMember` builds. A step leaves them copyable when they
have no members, or when it assigns into an object that has constructors for all of them already
and none of them has members. -/
theorem copies_same_iff {e : Entity T D} (h : Built e) {steps : List (CopyStep T D)}
    (hfits : ∀ step ∈ steps, step.Fits e) :
    (∃ cs, copies C e steps = .ok cs ∧ ∀ c ∈ cs, SameTree c e) ↔
      ∀ step ∈ steps.dropLast, step.LeavesCopyable e :=
  copies_same_of_typed h.keptInStep.typed hfits

/-- A copy without constructors of its own leaves only an entity without members copyable. -/
theorem leavesCopyable_of_nil {e : Entity T D} (h : Built e) {step : CopyStep T D}
    (hstep : step.constructors = []) : step.LeavesCopyable e ↔ e.membersMap = [] := by
  constructor
  · intro hleaves
    cases hmembers : e.membersMap with
    | nil => rfl
    | cons p members =>
      have hp : p ∈ e.membersMap := by
        rw [hmembers]
        exact List.mem_cons_self
      obtain ⟨m, rfl, -⟩ := h.keptInStep.members p hp
      have hlookup := (hleaves _ hp m rfl).1
      rw [hstep] at hlookup
      cases hlookup
  · intro hnone p hp
    rw [hnone] at hp
    cases hp

/-! ## One member -/

/-- The classes of an entity and of its member; neither is derived from the other. -/
inductive PairClass where
  | typeA
  | typeB
  deriving DecidableEq

/-- The value of a member is copied by the copy constructor of its own class. -/
def pairClasses : EntityClasses PairClass Nat where
  derivesFrom t s := t == s
  derivesFrom_self t := beq_self_eq_true t
  slice s t d := if s = t then d else 7
  slice_self _ _ := if_pos rfl

/-- An entity with a key and one member with a value of its own. -/
def pair : Entity PairClass Nat :=
  withMember .typeB "member_key".toList (.mk "member_key".toList .typeB 8 [] [])
    (.mk "key".toList .typeA 7 [] [])

theorem built_pair : Built pair :=
  .aggregate (.new _ _ _) (.new "member_key".toList PairClass.typeB 8)
    (aggregateMember_eq_ok.mpr ⟨by decide, by decide, rfl⟩)

/-- The second copy calls an empty function. -/
theorem not_copyable_pair :
    Built pair ∧ (∃ c, copies pairClasses pair [.construct] = .ok [c] ∧ SameTree c pair) ∧
      copies pairClasses pair [.construct, .construct] = .error badFunctionCall ∧
      copies pairClasses pair [.assign (.mk [] .typeA 7 [] []), .construct] =
        .error badFunctionCall :=
  ⟨built_pair, ⟨_, rfl, rfl⟩, rfl, rfl⟩

/-- An object that had such a member before keeps its constructor, and the copy in it is copied. -/
theorem copies_same_pair :
    ∃ cs, copies pairClasses pair
        [.assign (.mk [] .typeA 3 [] [("member_key".toList, .typeB)]), .construct] = .ok cs ∧
      ∀ c ∈ cs, SameTree c pair := by
  apply (copies_same_iff built_pair ?_).mpr
  · intro step hstep
    rw [List.mem_singleton.mp hstep]
    intro p hp m hm
    rw [List.mem_singleton.mp hp] at hm
    cases hm
    exact ⟨rfl, rfl⟩
  · intro step hstep
    rcases List.mem_cons.mp hstep with rfl | hstep
    · rfl
    · rw [List.mem_singleton.mp hstep]
      trivial

end Azulejo
