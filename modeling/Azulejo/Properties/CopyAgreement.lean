import Azulejo.Entities.ObjectTrees
import Azulejo.Properties.CopyChain

/-!
# Copy construction and copy assignment

`T(s)` and `t = s` make the same tree of an entity tree `s` that was built with
`AggregateMember<T>`, unless `t` stands below `s`. Then the assignment changes the tree while it
copies it: when the loop comes to the member with `t` below it, `t` has the key of `s` already, and
for its members the copies made so far.
-/

namespace Azulejo

open AssocList Stateful

variable {T D : Type}

namespace Heap

variable {C : EntityClasses T D} {heap heap₁ : Heap T D} {region : Nat → Prop} {target : Nat}
  {changed : Entity T D}

/-! ## A tree with one object changed -/

/-- The object at `target`, which has changed, is still copied as the tree it was. -/
def CopiedAsBefore (C : EntityClasses T D) (heap : Heap T D) (target : Nat) (changed : Entity T D) :
    Prop :=
  ∀ e region, Represents heap region e target → Entity.constructAs C e.type changed = .ok e.bare

mutual
/-- When one object has changed, a tree is copied as before exactly if that object is, or is not
there. -/
theorem Represents.changed (hagree : ∀ (x : Nat) (object : Object T D), x ≠ target →
    heap[x]? = some object → heap₁[x]? = some object)
    (hchanged : Represents heap₁ (fun _ => True) changed target) :
    ∀ {e : Entity T D} {a : Nat}, Represents heap region e a → e.Typed →
      ∃ e', Represents heap₁ (fun _ => True) e' a ∧
        (Entity.constructAs C e.type e' = .ok e.bare ↔
          (AtOrBelow heap a target → CopiedAsBefore C heap target changed))
  | .mk key type data membersMap ctors, a, h, htyped => by
    by_cases ha : a = target
    · subst ha
      refine ⟨changed, hchanged, fun hcopy _ e region he => ?_, fun hcopied =>
        hcopied Relation.ReflTransGen.refl _ region h⟩
      rw [he.unique h]
      exact hcopy
    · have hrep := h
      rw [Represents] at h
      obtain ⟨-, object, hobject, hfits, hmembers⟩ := h
      rw [Entity.Typed] at htyped
      obtain ⟨members', hmembers', hiff⟩ := RepresentsAll.changed hagree hchanged hmembers htyped
      refine ⟨.mk key type data members' ctors, ?_, ?_⟩
      · rw [Represents]
        exact ⟨trivial, object, hagree a object ha hobject,
          ⟨hfits.key, hfits.type, hfits.data, hfits.constructors, hfits.nodup⟩, hmembers'⟩
      · have hcopy : Entity.constructAs C type (.mk key type data members' ctors) =
              .ok (.mk key type data (Entity.bareMembers membersMap) []) ↔
            Entity.copyMembers C ctors members' = .ok (Entity.bareMembers membersMap) := by
          rw [Entity.constructAs_eq_ok]
          constructor
          · rintro ⟨-, members, hcopies, heq⟩
            injection heq with _ _ _ hsame
            rw [hsame]
            exact hcopies
          · intro hcopies
            refine ⟨C.derivesFrom_self type, _, hcopies, ?_⟩
            show _ = Entity.mk key type (C.slice type type data) _ []
            rw [C.slice_self]
        rw [Entity.bare]
        refine hcopy.trans (hiff.trans ⟨fun hall hbelow => ?_, fun hcopied key b hb hbelow =>
          hcopied (Relation.ReflTransGen.head ⟨object, hobject, key, hb⟩ hbelow)⟩)
        rcases Relation.ReflTransGen.cases_head hbelow with heq | ⟨b, ⟨object', hobject', key, hb⟩,
            hbelow⟩
        · exact absurd heq ha
        · obtain rfl := Option.some.inj (hobject.symm.trans hobject')
          exact hall key b hb hbelow
theorem RepresentsAll.changed (hagree : ∀ (x : Nat) (object : Object T D), x ≠ target →
    heap[x]? = some object → heap₁[x]? = some object)
    (hchanged : Represents heap₁ (fun _ => True) changed target) :
    ∀ {members : List (Key × Option (Entity T D))} {pointers : List (Key × Option Nat)}
      {ctors : List (Key × T)}, RepresentsAll heap region members pointers →
      Entity.MembersTyped (fun key => List.lookup key ctors) members →
      ∃ members', RepresentsAll heap₁ (fun _ => True) members' pointers ∧
        (Entity.copyMembers C ctors members' = .ok (Entity.bareMembers members) ↔
          ∀ key a, (key, some a) ∈ pointers → AtOrBelow heap a target →
            CopiedAsBefore C heap target changed)
  | [], _, ctors, h, _ => by
    rw [RepresentsAll] at h
    subst h
    refine ⟨[], by rw [RepresentsAll], ?_⟩
    rw [Entity.copyMembers, Entity.bareMembers]
    exact iff_of_true rfl nofun
  | (key, none) :: members, _, ctors, _, htyped => by
    rw [Entity.MembersTyped] at htyped
    exact absurd htyped id
  | (key, some m) :: members, _, ctors, h, htyped => by
    rw [RepresentsAll] at h
    obtain ⟨a, rest, rfl, hm, hrest⟩ := h
    rw [Entity.MembersTyped] at htyped
    obtain ⟨⟨hkey, hlookup, htypedm⟩, htypedrest⟩ := htyped
    obtain ⟨m', hm', hiff⟩ := Represents.changed hagree hchanged hm htypedm
    obtain ⟨members', hmembers', hiffs⟩ := RepresentsAll.changed hagree hchanged hrest htypedrest
    refine ⟨(key, some m') :: members', ?_, ?_⟩
    · rw [RepresentsAll]
      exact ⟨a, rest, rfl, hm', hmembers'⟩
    rw [Entity.copyMembers_cons_eq_ok, Entity.bareMembers]
    constructor
    · rintro ⟨-, t, c, copies, -, hc, hcopies, heq⟩
      obtain ⟨hhead, rfl⟩ := List.cons.inj heq
      obtain rfl := Option.some.inj (Prod.mk.inj hhead).2
      rw [(Entity.of_constructAs_eq_bare hc).2] at hc
      intro k b hb hbelow
      rcases List.mem_cons.mp hb with heq | hb
      · obtain ⟨-, heq⟩ := Prod.mk.inj heq
        obtain rfl := Option.some.inj heq
        exact hiff.mp hc hbelow
      · exact hiffs.mp hcopies k b hb hbelow
    · intro hall
      have hc := hiff.mpr (hall key a List.mem_cons_self)
      have hcopies := hiffs.mpr fun k b hb => hall k b (List.mem_cons_of_mem _ hb)
      rw [(Entity.of_constructAs_eq_bare hc).1]
      exact ⟨hkey, m.type, m.bare, _, hlookup, hc, hcopies, rfl⟩
end

/-! ## The loop of an assignment -/

/-- The heap `now` during an assignment to `target`, which was `object` in `heap`: it has its new
key and the members made so far, which stand for `copies`. -/
structure Assigning (heap : Heap T D) (target : Nat) (object : Object T D) (key : Key)
    (copies : List (Key × Option (Entity T D))) (now : Heap T D) : Prop where
  wellFormed : now.WellFormed
  length_le : heap.length ≤ now.length
  others : ∀ (x : Nat) (o : Object T D), x ≠ target → heap[x]? = some o → now[x]? = some o
  members : ∃ pointers, now[target]? = some { object with key := key, membersMap := pointers } ∧
    RepresentsAll now (fun x => heap.length ≤ x) copies pointers

variable {object : Object T D} {copies : List (Key × Option (Entity T D))} {now : Heap T D}

/-- The target as the loop has it. -/
def assigned (object : Object T D) (key : Key) (copies : List (Key × Option (Entity T D))) :
    Entity T D :=
  .mk key object.type object.data copies object.constructors

theorem Assigning.represents {key : Key} (h : Assigning heap target object key copies now)
    (hobject : object.WellFormed heap.length) :
    Represents now (fun _ => True) (assigned object key copies) target := by
  obtain ⟨pointers, htarget, hpointers⟩ := h.members
  rw [assigned, Represents]
  exact ⟨trivial, _, htarget, ⟨rfl, rfl, rfl, rfl, hobject.constructors.nodup⟩,
    hpointers.transport fun x o _ ho => ⟨trivial, ho⟩⟩

/-- A member more. -/
theorem Assigning.add {key : Key} (h : Assigning heap target object key copies now)
    (htarget : target < heap.length) {now' : Heap T D} {copy : Nat} {c : Entity T D} {k : Key}
    (hwf : now'.WellFormed) (hstart : now <+: now') (hcopy : copy < now'.length)
    (hc : Represents now' (fun x => now.length ≤ x) c copy) (hk : ∀ j ∈ keys copies, j < k) :
    Assigning heap target object key (copies ++ [(k, some c)])
      (now'.modify target fun object =>
        { object with membersMap := insertSorted k (some copy) object.membersMap }) := by
  obtain ⟨pointers, hobject, hpointers⟩ := h.members
  have hkeep : ∀ (x : Nat) (o : Object T D), heap.length ≤ x → now'[x]? = some o →
      heap.length ≤ x ∧ (now'.modify target fun object =>
        { object with membersMap := insertSorted k (some copy) object.membersMap })[x]? =
          some o := by
    intro x o hx ho
    rw [List.getElem?_modify_ne _ _ (ne_of_lt (lt_of_lt_of_le htarget hx))]
    exact ⟨hx, ho⟩
  refine ⟨?_, ?_, ?_, pointers ++ [(k, some copy)], ?_, ?_⟩
  · refine hwf.modify _ fun o ho => (hwf.get ho).insert k (some copy) ?_
    intro a ha
    cases ha
    exact hcopy
  · rw [List.length_modify]
    exact le_trans h.length_le hstart.length_le
  · intro x o hx ho
    rw [List.getElem?_modify_ne _ _ (Ne.symm hx)]
    exact getElem?_of_isPrefix hstart (h.others x o hx ho)
  · rw [List.getElem?_modify_eq, getElem?_of_isPrefix hstart hobject]
    refine congrArg some ?_
    show Object.mk _ _ _ (insertSorted k (some copy) pointers) _ = _
    rw [insertSorted_of_gt (by rw [hpointers.keys_eq]; exact hk)]
  · refine ((hpointers.of_isPrefix hstart fun _ => id).concat k
      (hc.transport fun x o hx ho => ⟨le_trans h.length_le hx, ho⟩)).transport hkeep

theorem Assigning.unique {key key' : Key} {more : List (Key × Option (Entity T D))}
    (h : Assigning heap target object key copies now)
    (h' : Assigning heap target object key' more now) : copies = more := by
  obtain ⟨pointers, hobject, hpointers⟩ := h.members
  obtain ⟨pointers', hobject', hpointers'⟩ := h'.members
  obtain rfl : pointers = pointers' :=
    congrArg Object.membersMap (Option.some.inj (hobject.symm.trans hobject'))
  exact hpointers.unique hpointers'

/-- A turn of the loop that returned has copied the member as it was by then. -/
theorem Assigning.of_turn {key : Key} (h : Assigning heap target object key copies now)
    (htarget : target < heap.length) {depth source b : Nat} {k : Key} {m : Entity T D}
    {rest : List (Key × Option Nat)} (hm : Represents now (fun _ => True) m b)
    (hk : ∀ j ∈ keys copies, j < k) {now' : Heap T D}
    (hrun : (assignMembers (constructEntity (constructAs C depth) source) target
      ((k, some b) :: rest)).run now = .ok () now') :
    ∃ t c now₁, Entity.constructAs C t m = .ok c ∧
      Assigning heap target object key (copies ++ [(k, some c)]) now₁ ∧
      (assignMembers (constructEntity (constructAs C depth) source) target rest).run now₁ =
        .ok () now' := by
  rw [assignMembers] at hrun
  obtain ⟨copy, now₁, hcopy, hrun⟩ := of_bind_ok hrun
  rw [bind_ok (update_run target _ now₁)] at hrun
  have hgrown := constructEntity_constructAs C depth source b h.wellFormed
  rw [hcopy] at hgrown
  obtain ⟨hwf, hstart, -, hhigh⟩ := hgrown
  obtain ⟨t, -, hcopy⟩ := constructEntity_ok hcopy
  obtain ⟨c, hc, -, hrep⟩ := hm.constructAs hcopy
  exact ⟨t, c, _, hc, h.add htarget hwf hstart hhigh hrep hk, hrun⟩

/-- A member that can be copied, as it is by then, is. -/
theorem Assigning.turn {key : Key} (h : Assigning heap target object key copies now)
    (htarget : target < heap.length) {depth source b : Nat} {k : Key} {m c : Entity T D} {t : T}
    (hm : Represents now (fun _ => True) m b) (hk : ∀ j ∈ keys copies, j < k)
    (hctor : ConstructorFor now source b t) (hc : Entity.constructAs C t m = .ok c)
    (hdepth : m.height ≤ depth) :
    ∃ now₁, Assigning heap target object key (copies ++ [(k, some c)]) now₁ ∧
      ∀ rest, (assignMembers (constructEntity (constructAs C depth) source) target
          ((k, some b) :: rest)).run now =
        (assignMembers (constructEntity (constructAs C depth) source) target rest).run now₁ := by
  obtain ⟨copy, now₁, hrun⟩ := hm.exists_constructAs hc hdepth
  obtain ⟨c', hc', hstart, hrep⟩ := hm.constructAs hrun
  obtain rfl : c' = c := Except.ok.inj (hc'.symm.trans hc)
  have hcopy : (constructEntity (constructAs C depth) source b).run now = .ok copy now₁ :=
    (constructEntity_run hctor).trans hrun
  have hgrown := constructEntity_constructAs C depth source b h.wellFormed
  rw [hcopy] at hgrown
  refine ⟨_, h.add htarget hgrown.1 hstart hgrown.2.2.2 hrep hk, fun rest => ?_⟩
  rw [assignMembers, bind_ok hcopy, bind_ok (update_run target _ now₁)]

/-- When the loop returns it has made copies, whatever they are. -/
theorem assignMembers_assigning {depth source : Nat} {e : Entity T D} {key : Key}
    (hheap : heap.WellFormed) (htarget : heap[target]? = some object)
    {members : List (Key × Option (Entity T D))} {pointers : List (Key × Option Nat)}
    (hmembers : RepresentsAll heap region members pointers)
    (htyped : Entity.MembersTyped e.constructorOf members)
    (hsorted : Sorted (copies ++ members)) (hnow : Assigning heap target object key copies now)
    {now' : Heap T D} (hrun : (assignMembers (constructEntity (constructAs C depth) source) target
      pointers).run now = .ok () now') :
    ∃ more, Entity.bareMembers more = more ∧
      Assigning heap target object key (copies ++ more) now' := by
  induction members generalizing copies pointers now with
  | nil =>
    rw [RepresentsAll] at hmembers
    subst hmembers
    cases hrun
    refine ⟨[], by rw [Entity.bareMembers], ?_⟩
    rw [List.append_nil]
    exact hnow
  | cons p members ih =>
    obtain ⟨k, pointer⟩ := p
    cases pointer with
    | none =>
      rw [Entity.MembersTyped] at htyped
      exact absurd htyped id
    | some m =>
      rw [RepresentsAll] at hmembers
      obtain ⟨b, rest, rfl, hm, hrest⟩ := hmembers
      rw [Entity.MembersTyped] at htyped
      obtain ⟨⟨-, -, htypedm⟩, htypedrest⟩ := htyped
      obtain ⟨m', hm', -⟩ := Represents.changed (C := C) hnow.others
        (hnow.represents (hheap.get htarget)) hm htypedm
      obtain ⟨t, c, now₁, hc, hadd, hrun⟩ :=
        hnow.of_turn (List.getElem?_eq_some_iff.mp htarget).1 hm' (lt_of_sorted_append hsorted) hrun
      have hsorted' : Sorted ((copies ++ [(k, some c)]) ++ members) := by
        rw [List.append_assoc]
        exact hsorted.of_keys_eq (by simp only [keys_append, keys_cons, List.singleton_append])
      obtain ⟨more, hbare, hfinal⟩ := ih hrest htypedrest hsorted' hadd hrun
      refine ⟨(k, some c) :: more, ?_, ?_⟩
      · rw [Entity.bareMembers, Entity.bare_of_constructAs m' hc, hbare]
      · rw [List.append_assoc, List.singleton_append] at hfinal
        exact hfinal

/-- The copy that a turn has made is the one that is there when the loop returns. -/
theorem assignMembers_keeps_copy {depth source : Nat} {e : Entity T D} {key k : Key}
    (hheap : heap.WellFormed) (htarget : heap[target]? = some object)
    {members : List (Key × Option (Entity T D))} {pointers : List (Key × Option Nat)}
    (hmembers : RepresentsAll heap region members pointers)
    (htyped : Entity.MembersTyped e.constructorOf members) {c c' : Entity T D}
    (hsorted : Sorted (copies ++ (k, some c) :: members))
    (hnow : Assigning heap target object key (copies ++ [(k, some c)]) now)
    {now' : Heap T D} (hrun : (assignMembers (constructEntity (constructAs C depth) source) target
      pointers).run now = .ok () now') {later : List (Key × Option (Entity T D))}
    (hfinal : Assigning heap target object key (copies ++ (k, some c') :: later) now') : c' = c := by
  have hsorted' : Sorted ((copies ++ [(k, some c)]) ++ members) := by
    rw [List.append_assoc]
    exact hsorted
  obtain ⟨more, -, hmore⟩ :=
    assignMembers_assigning hheap htarget hmembers htyped hsorted' hnow hrun
  have hsame := hfinal.unique hmore
  rw [List.append_assoc, List.append_cancel_left_eq] at hsame
  obtain ⟨hhead, -⟩ := List.cons.inj hsame
  exact Option.some.inj (Prod.mk.inj hhead).2

/-- At every member that has the target at or below it the target, as the loop has it by then, is
copied as it was. -/
def CopiedInTurn (C : EntityClasses T D) (heap : Heap T D) (target : Nat) (object : Object T D)
    (key : Key) (done members : List (Key × Option (Entity T D)))
    (pointers : List (Key × Option Nat)) : Prop :=
  ∀ i k b, pointers[i]? = some (k, some b) → AtOrBelow heap b target →
    CopiedAsBefore C heap target
      (assigned object key (Entity.bareMembers (done ++ members.take i)))

theorem copiedInTurn_cons {key k : Key} {m : Entity T D} {b : Nat}
    {done members : List (Key × Option (Entity T D))} {pointers : List (Key × Option Nat)} :
    CopiedInTurn C heap target object key done ((k, some m) :: members) ((k, some b) :: pointers) ↔
      (AtOrBelow heap b target →
        CopiedAsBefore C heap target (assigned object key (Entity.bareMembers done))) ∧
      CopiedInTurn C heap target object key (done ++ [(k, some m)]) members pointers := by
  constructor
  · intro h
    constructor
    · intro hbelow
      have hfirst := h 0 k b rfl hbelow
      rw [List.take_zero, List.append_nil] at hfirst
      exact hfirst
    · intro i k' b' hb hbelow
      have hlater := h (i + 1) k' b' hb hbelow
      rw [List.take_succ_cons] at hlater
      rw [List.append_assoc, List.singleton_append]
      exact hlater
  · rintro ⟨hfirst, hlater⟩ i k' b' hb hbelow
    cases i with
    | zero =>
      obtain ⟨-, heq⟩ := Prod.mk.inj (Option.some.inj hb)
      obtain rfl := Option.some.inj heq
      rw [List.take_zero, List.append_nil]
      exact hfirst hbelow
    | succ i =>
      have hrest := hlater i k' b' hb hbelow
      rw [List.append_assoc, List.singleton_append] at hrest
      rw [List.take_succ_cons]
      exact hrest

/-- The loop makes the members of the tree, of which `done` is made, exactly if the target is copied
as it was at every member that has it at or below. -/
theorem assignMembers_iff {depth source : Nat} {other : Object T D} {e : Entity T D} {key : Key}
    (hheap : heap.WellFormed) (htarget : heap[target]? = some object) (hne : source ≠ target)
    (hsource : heap[source]? = some other) (hfits : other.Fits e)
    {done members : List (Key × Option (Entity T D))} {pointers : List (Key × Option Nat)}
    (hmembers : RepresentsAll heap region members pointers)
    (htyped : Entity.MembersTyped e.constructorOf members)
    (hsorted : Sorted (done ++ members)) (hdepth : Entity.membersHeight members ≤ depth)
    (hnow : Assigning heap target object key (Entity.bareMembers done) now) :
    (∃ now', (assignMembers (constructEntity (constructAs C depth) source) target
        pointers).run now = .ok () now' ∧
      Assigning heap target object key (Entity.bareMembers (done ++ members)) now') ↔
    CopiedInTurn C heap target object key done members pointers := by
  induction members generalizing done pointers now with
  | nil =>
    rw [RepresentsAll] at hmembers
    subst hmembers
    rw [List.append_nil]
    exact iff_of_true ⟨now, rfl, hnow⟩ nofun
  | cons p members ih =>
    obtain ⟨k, pointer⟩ := p
    cases pointer with
    | none =>
      rw [Entity.MembersTyped] at htyped
      exact absurd htyped id
    | some m =>
      rw [RepresentsAll] at hmembers
      obtain ⟨b, rest, rfl, hm, hrest⟩ := hmembers
      rw [Entity.MembersTyped] at htyped
      obtain ⟨⟨hkey, hlookup, htypedm⟩, htypedrest⟩ := htyped
      rw [Entity.membersHeight, Nat.max_le] at hdepth
      obtain ⟨m', hm', hiff⟩ := Represents.changed (C := C) hnow.others
        (hnow.represents (hheap.get htarget)) hm htypedm
      have hlt : target < heap.length := (List.getElem?_eq_some_iff.mp htarget).1
      have hbefore : ∀ j ∈ keys (Entity.bareMembers done), j < k := by
        rw [Entity.keys_bareMembers]
        exact lt_of_sorted_append hsorted
      have hdone : Entity.bareMembers done ++ [(k, some m.bare)] =
          Entity.bareMembers (done ++ [(k, some m)]) := by
        rw [Entity.bareMembers_append, Entity.bareMembers, Entity.bareMembers]
      have hall : done ++ (k, some m) :: members = (done ++ [(k, some m)]) ++ members := by
        rw [List.append_assoc, List.singleton_append]
      rw [copiedInTurn_cons]
      constructor
      · rintro ⟨now', hrun, hfinal⟩
        obtain ⟨t, c, now₁, hc, hadd, hrun⟩ := hnow.of_turn hlt hm' hbefore hrun
        have hsorted' : Sorted (Entity.bareMembers done ++ (k, some c) :: members) :=
          hsorted.of_keys_eq (by simp only [keys_append, keys_cons, Entity.keys_bareMembers])
        rw [hall] at hfinal hsorted
        have hcopies : Assigning heap target object key (Entity.bareMembers done ++
            (k, some m.bare) :: Entity.bareMembers members) now' := by
          rw [Entity.bareMembers_append, ← hdone, List.append_assoc] at hfinal
          exact hfinal
        obtain rfl :=
          assignMembers_keeps_copy hheap htarget hrest htypedrest hsorted' hadd hrun hcopies
        rw [(Entity.of_constructAs_eq_bare hc).2] at hc
        rw [hdone] at hadd
        exact ⟨hiff.mp hc, (ih hrest htypedrest hsorted hdepth.2 hadd).mp ⟨now', hrun, hfinal⟩⟩
      · rintro ⟨hfirst, hlater⟩
        have hc := hiff.mpr hfirst
        have hheight : m'.height ≤ depth := by
          rw [← Entity.height_of_constructAs hc, Entity.height_bare]
          exact hdepth.1
        have hctor : ConstructorFor now source b m.type := by
          rw [constructorFor_iff (hnow.others source other hne hsource) hfits hm',
            (Entity.of_constructAs_eq_bare hc).1]
          exact ⟨hkey, hlookup⟩
        obtain ⟨now₁, hadd, hturn⟩ := hnow.turn hlt hm' hbefore hctor hc hheight
        rw [hdone] at hadd
        rw [hall] at hsorted ⊢
        obtain ⟨now', hrun, hfinal⟩ := (ih hrest htypedrest hsorted hdepth.2 hadd).mpr hlater
        exact ⟨now', (hturn rest).trans hrun, hfinal⟩

/-! ## When the changed target is copied as it was -/

/-- The entry `q` holds an entity without members, and `p` one that its class makes `q` of. -/
def LeafCopy (C : EntityClasses T D) (p q : Key × Option (Entity T D)) : Prop :=
  p.1 = q.1 ∧ ∃ m m', p.2 = some m ∧ q.2 = some m' ∧ m.key = m'.key ∧ m.membersMap = [] ∧
    m'.membersMap = [] ∧ C.derivesFrom m.type m'.type = true ∧
    m'.data = C.slice m'.type m.type m.data

/-- A copy has no constructors, so it can be copied only without members. -/
theorem constructAs_bare_iff {m m' : Entity T D} :
    Entity.constructAs C m'.type m.bare = .ok m'.bare ↔ m.key = m'.key ∧ m.membersMap = [] ∧
      m'.membersMap = [] ∧ C.derivesFrom m.type m'.type = true ∧
      m'.data = C.slice m'.type m.type m.data := by
  rw [Entity.constructAs_eq_ok, Entity.bare_eq m, Entity.bare_eq m']
  constructor
  · rintro ⟨hcast, members, hmembers, heq⟩
    obtain ⟨hnil, rfl⟩ := Entity.copyMembers_nil_eq_ok.mp hmembers
    injection heq with hkey _ hdata hbare
    exact ⟨hkey.symm, Entity.bareMembers_eq_nil.mp hnil, Entity.bareMembers_eq_nil.mp hbare, hcast,
      hdata⟩
  · rintro ⟨hkey, hnil, hnil', hcast, hdata⟩
    have hcopies : Entity.copyMembers C [] (Entity.bareMembers m.membersMap) = .ok [] :=
      Entity.copyMembers_nil_eq_ok.mpr ⟨Entity.bareMembers_eq_nil.mpr hnil, rfl⟩
    refine ⟨hcast, [], hcopies, ?_⟩
    rw [Entity.bareMembers_eq_nil.mpr hnil', ← hkey, hdata]
    rfl

/-- The copies of `done` are copied, with constructors for `members`, to `members`. -/
theorem copyMembers_bare_iff {ctors : List (Key × T)}
    {done members : List (Key × Option (Entity T D))}
    (htyped : Entity.MembersTyped (fun key => List.lookup key ctors) members) :
    Entity.copyMembers C ctors (Entity.bareMembers done) = .ok (Entity.bareMembers members) ↔
      List.Forall₂ (LeafCopy C) done members := by
  induction done generalizing members with
  | nil =>
    rw [Entity.bareMembers, Entity.copyMembers, List.forall₂_nil_left_iff,
      ← Entity.bareMembers_eq_nil]
    exact ⟨fun h => (Except.ok.inj h).symm, fun h => by rw [h]; rfl⟩
  | cons p done ih =>
    obtain ⟨k, pointer⟩ := p
    cases pointer with
    | none =>
      rw [Entity.bareMembers]
      refine iff_of_false nofun fun h => ?_
      obtain ⟨q, rest, ⟨-, m, -, hm, -⟩, -⟩ := List.forall₂_cons_left_iff.mp h
      cases hm
    | some m =>
      rw [Entity.bareMembers, Entity.copyMembers_cons_eq_ok]
      match members with
      | [] =>
        rw [Entity.bareMembers]
        exact iff_of_false (fun ⟨_, _, _, _, _, _, _, h⟩ => nomatch h) nofun
      | (k', none) :: members =>
        rw [Entity.MembersTyped] at htyped
        exact absurd htyped id
      | (k', some m') :: members =>
        rw [Entity.MembersTyped] at htyped
        obtain ⟨⟨hkey, hlookup, -⟩, hrest⟩ := htyped
        rw [Entity.bareMembers, List.forall₂_cons, ← ih hrest]
        have hbare : m.bare.key = m.key := by
          rw [Entity.bare_eq]
          rfl
        rw [hbare]
        constructor
        · rintro ⟨-, t, c, copies, -, hc, hcopies, heq⟩
          obtain ⟨hhead, rfl⟩ := List.cons.inj heq
          obtain ⟨rfl, hsome⟩ := Prod.mk.inj hhead
          obtain rfl := Option.some.inj hsome
          rw [(Entity.of_constructAs_eq_bare hc).2] at hc
          exact ⟨⟨rfl, m, m', rfl, rfl, constructAs_bare_iff.mp hc⟩, hcopies⟩
        · rintro ⟨⟨hk, m₁, m₂, hm₁, hm₂, hleaf⟩, hcopies⟩
          obtain rfl := Option.some.inj hm₁
          obtain rfl := Option.some.inj hm₂
          obtain rfl : k = k' := hk
          rw [hleaf.1]
          exact ⟨hkey, m'.type, m'.bare, _, hlookup, constructAs_bare_iff.mpr hleaf, hcopies, rfl⟩

/-- The target, with a new key and the copies of `done`, is copied as it was exactly if it had that
key and those members. -/
theorem copiedAsBefore_iff {key : Key} {done : List (Key × Option (Entity T D))} {e : Entity T D}
    (htarget : heap[target]? = some object) (he : Represents heap region e target)
    (htyped : e.Typed) :
    CopiedAsBefore C heap target (assigned object key (Entity.bareMembers done)) ↔
      object.key = key ∧ List.Forall₂ (LeafCopy C) done e.membersMap := by
  obtain ⟨-, object', hobject', hfits, -⟩ := represents_iff.mp he
  obtain rfl := Option.some.inj (htarget.symm.trans hobject')
  have hcopied : CopiedAsBefore C heap target (assigned object key (Entity.bareMembers done)) ↔
      Entity.constructAs C e.type (assigned object key (Entity.bareMembers done)) = .ok e.bare := by
    refine ⟨fun h => h e region he, fun h e' region' he' => ?_⟩
    rw [he'.unique he]
    exact h
  rw [Entity.typed_eq] at htyped
  rw [hcopied, ← copyMembers_bare_iff htyped, Entity.constructAs_eq_ok, Entity.bare_eq, assigned,
    hfits.key]
  constructor
  · rintro ⟨-, members, hmembers, heq⟩
    injection heq with hkey _ _ hbare
    rw [← hbare] at hmembers
    exact ⟨hkey, hfits.constructors ▸ hmembers⟩
  · rintro ⟨rfl, hmembers⟩
    refine ⟨?_, _, hfits.constructors ▸ hmembers, ?_⟩
    · show C.derivesFrom object.type e.type = true
      rw [hfits.type]
      exact C.derivesFrom_self e.type
    · show _ = Entity.mk e.key e.type (C.slice e.type object.type object.data) _ []
      rw [hfits.type, hfits.data, C.slice_self]

/-! ## Both copies -/

/-- The source is the root of the tree `e`, which was built directly, and the target is an object of
its class. The source is not below the target, which destroys its members. -/
structure CopyPair (heap : Heap T D) (target source : Nat) (e : Entity T D) : Prop where
  wellFormed : heap.WellFormed
  represents : Represents heap (fun _ => True) e source
  built : Built e
  sameClass : ∃ object : Object T D, heap[target]? = some object ∧ object.type = e.type
  notBelow : ¬ Relation.TransGen heap.Holds target source

/-- An object is the root of the same tree as `e`. -/
def IsCopy (heap : Heap T D) (a : Nat) (e : Entity T D) : Prop :=
  ∃ c, Represents heap (fun _ => True) c a ∧ Entity.SameTree c e

/-- `T(s)` and `t = s` return, and both make the tree of the source. -/
def CopiesAgree (C : EntityClasses T D) (heap : Heap T D) (target source : Nat) (e : Entity T D) :
    Prop :=
  ∃ levels, ∀ depth ≥ levels,
    (∃ copy heap', (constructAs C depth e.type source).run heap = .ok copy heap' ∧
      IsCopy heap' copy e) ∧
    ∃ heap', (copyAssign C depth target source).run heap = .ok () heap' ∧ IsCopy heap' target e

/-- If the target is at or below a member of the source, it has the key of the source, and its
members are leaves that the members of the source before that one, leaves too, are copied to. -/
def AssignedSafely (C : EntityClasses T D) (heap : Heap T D) (target source : Nat)
    (e : Entity T D) : Prop :=
  ∀ object other : Object T D, heap[target]? = some object → heap[source]? = some other →
    ∀ i key b, other.membersMap[i]? = some (key, some b) → AtOrBelow heap b target →
      object.key = e.key ∧ ∀ e', Represents heap (fun _ => True) e' target →
        List.Forall₂ (LeafCopy C) (e.membersMap.take i) e'.membersMap

theorem exists_copy {source depth : Nat} {e : Entity T D}
    (hrep : Represents heap (fun _ => True) e source) (htyped : e.Typed)
    (hdepth : e.height ≤ depth) :
    ∃ copy heap', (constructAs C depth e.type source).run heap = .ok copy heap' ∧
      IsCopy heap' copy e := by
  have hcopy : Entity.constructAs C e.type e = .ok e.bare := Entity.copyConstruct_of_typed htyped
  obtain ⟨copy, heap', hrun⟩ := hrep.exists_constructAs hcopy hdepth
  obtain ⟨c, hc, -, hc'⟩ := hrep.constructAs hrun
  obtain rfl := Except.ok.inj (hc.symm.trans hcopy)
  exact ⟨copy, heap', hrun, e.bare, hc'.transport fun x o _ ho => ⟨trivial, ho⟩, Entity.bare_bare e⟩

/-- The target when the loop begins. -/
theorem assigning_cleared {other : Object T D} {e : Entity T D} (hheap : heap.WellFormed)
    (htarget : heap[target]? = some object) (hfits : other.Fits e) :
    Assigning heap target object e.key (Entity.bareMembers []) (heap.cleared target other) := by
  refine ⟨hheap.cleared target other, ?_, ?_, [], ?_, ?_⟩
  · unfold cleared
    rw [List.length_modify]
  · intro x o hx ho
    unfold cleared
    rw [List.getElem?_modify_ne _ _ (Ne.symm hx), ho]
  · unfold cleared
    rw [List.getElem?_modify_eq, htarget, ← hfits.key]
    rfl
  · rw [Entity.bareMembers, RepresentsAll]

/-- After the loop the data is copied, and the target is the root of a tree. -/
theorem Assigning.finish {key : Key} (h : Assigning heap target object key copies now)
    (htarget : heap[target]? = some object) (hheap : heap.WellFormed) (data : T → D) :
    Represents (now.modify target fun object => { object with data := data object.type })
      (fun _ => True) (.mk key object.type (data object.type) copies object.constructors)
        target := by
  obtain ⟨pointers, hobject, hpointers⟩ := h.members
  have hlt : target < heap.length := (List.getElem?_eq_some_iff.mp htarget).1
  rw [Represents]
  refine ⟨trivial, { object with key := key, membersMap := pointers, data := data object.type }, ?_,
    ⟨rfl, rfl, rfl, rfl, (hheap.get htarget).constructors.nodup⟩, hpointers.transport ?_⟩
  · rw [List.getElem?_modify_eq, hobject]
    rfl
  · intro x o hx ho
    rw [List.getElem?_modify_ne _ _ (ne_of_lt (lt_of_lt_of_le hlt hx))]
    exact ⟨trivial, ho⟩

/-- The condition on the target, at each turn of the loop. -/
theorem assignedSafely_iff {source : Nat} {other : Object T D} {e : Entity T D}
    (hrep : Represents heap (fun _ => True) e source) (htyped : e.Typed)
    (htarget : heap[target]? = some object) (hother : heap[source]? = some other) :
    AssignedSafely C heap target source e ↔
      CopiedInTurn C heap target object e.key [] e.membersMap other.membersMap := by
  have hturn : ∀ i k b, other.membersMap[i]? = some (k, some b) → AtOrBelow heap b target →
      (CopiedAsBefore C heap target
          (assigned object e.key (Entity.bareMembers ([] ++ e.membersMap.take i))) ↔
        object.key = e.key ∧ ∀ e', Represents heap (fun _ => True) e' target →
          List.Forall₂ (LeafCopy C) (e.membersMap.take i) e'.membersMap) := by
    intro i k b hb hbelow
    have hholds : heap.Holds source b := ⟨other, hother, k, List.mem_of_getElem? hb⟩
    obtain ⟨e', he', -, htyped'⟩ :=
      hrep.exists_of_atOrBelow (Relation.ReflTransGen.head hholds hbelow)
    rw [List.nil_append, copiedAsBefore_iff htarget he' (htyped' htyped)]
    refine and_congr_right fun _ => ⟨fun h e'' he'' => ?_, fun h => h e' he'⟩
    rw [he''.unique he']
    exact h
  constructor
  · intro hsafe i k b hb hbelow
    exact (hturn i k b hb hbelow).mpr (hsafe object other htarget hother i k b hb hbelow)
  · intro hcopied object' other' htarget' hother' i k b hb hbelow
    obtain rfl := Option.some.inj (htarget.symm.trans htarget')
    obtain rfl := Option.some.inj (hother.symm.trans hother')
    exact (hturn i k b hb hbelow).mp (hcopied i k b hb hbelow)

/-- A tree is not below its own members. -/
theorem assignedSafely_self {e : Entity T D} (h : CopyPair heap target target e) :
    AssignedSafely C heap target target e := by
  intro object other _ hother i key b hb hbelow
  exact absurd hbelow (h.represents.not_atOrBelow_of_holds
    ⟨other, hother, key, List.mem_of_getElem? hb⟩)

/-- With a depth that the tree does not exceed the assignment makes the tree exactly if the target
is not in its way. -/
theorem copyAssign_isCopy_iff {source depth : Nat} {e : Entity T D}
    (h : CopyPair heap target source e) (hdepth : e.height ≤ depth) :
    (∃ heap', (copyAssign C depth target source).run heap = .ok () heap' ∧
      IsCopy heap' target e) ↔ AssignedSafely C heap target source e := by
  by_cases hne : target = source
  · subst hne
    exact iff_of_true ⟨heap, copyAssign_self depth target heap, e, h.represents, rfl⟩
      (assignedSafely_self h)
  have htyped := h.built.keptInStep.typed
  obtain ⟨object, htarget, hclass⟩ := h.sameClass
  obtain ⟨-, other, hother, hfits, hmembers⟩ := represents_iff.mp h.represents
  have htypedm : Entity.MembersTyped e.constructorOf e.membersMap := by
    rw [← Entity.typed_eq]
    exact htyped
  have hsorted : Sorted ([] ++ e.membersMap) := by
    rw [List.nil_append, Sorted, ← hmembers.keys_eq]
    exact (h.wellFormed.get hother).members
  have hcleared := assigning_cleared h.wellFormed htarget hfits
  rw [assignedSafely_iff h.represents htyped htarget hother]
  rw [Entity.height_eq] at hdepth
  rw [← assignMembers_iff h.wellFormed htarget (Ne.symm hne) hother hfits hmembers htypedm hsorted
    (Nat.le_of_succ_le hdepth) hcleared, copyAssign_run hne htarget hother]
  constructor
  · rintro ⟨heap', hrun, c, hc, hsame⟩
    obtain ⟨u, now', hmade, hdata⟩ := of_bind_ok hrun
    obtain ⟨more, hbare, hfinal⟩ :=
      assignMembers_assigning h.wellFormed htarget hmembers htypedm hsorted hcleared hmade
    cases hdata
    have htree := hfinal.finish htarget h.wellFormed fun t => C.slice t other.type other.data
    obtain rfl := hc.unique htree
    -- what the loop made is what the source has
    rw [Entity.SameTree, Entity.bare, Entity.bare_eq] at hsame
    injection hsame with _ _ _ hmore
    rw [List.nil_append, hbare] at hmore
    rw [hmore] at hfinal
    exact ⟨now', hmade, hfinal⟩
  · rintro ⟨now', hmade, hfinal⟩
    have htree := hfinal.finish htarget h.wellFormed fun t => C.slice t other.type other.data
    refine ⟨_, ?_, _, htree, ?_⟩
    · rw [bind_ok hmade]
      exact update_run target _ now'
    · rw [List.nil_append, Entity.SameTree, Entity.bare, Entity.bare_eq,
        Entity.bareMembers_bareMembers, hclass, hfits.type, hfits.data, C.slice_self]

end Heap

open Heap

/-- For an entity tree that was built with `AggregateMember<T>` and a target of its class, copy
construction and copy assignment return and make the same tree, that of the source, if and only if
the target is not below the source, or where it is, it already has the key of the source and the
members that the loop has made by then. -/
theorem copies_agree_iff (C : EntityClasses T D) (heap : Heap T D) (target source : Nat)
    (e : Entity T D) (h : CopyPair heap target source e) :
    CopiesAgree C heap target source e ↔ AssignedSafely C heap target source e := by
  constructor
  · rintro ⟨levels, hagree⟩
    obtain ⟨-, hassigns⟩ := hagree (max levels e.height) (Nat.le_max_left _ _)
    exact (copyAssign_isCopy_iff h (Nat.le_max_right _ _)).mp hassigns
  · intro hsafe
    exact ⟨e.height, fun depth hdepth => ⟨exists_copy h.represents h.built.keptInStep.typed hdepth,
      (copyAssign_isCopy_iff h hdepth).mpr hsafe⟩⟩

namespace Heap

/-- An object without members holds nothing. -/
theorem not_holds_of_no_members {heap : Heap T D} {a : Nat} {object : Object T D}
    (hobject : heap[a]? = some object) (hmembers : object.membersMap = []) (b : Nat) :
    ¬ heap.Holds a b := by
  rintro ⟨object', hobject', key, hb⟩
  obtain rfl := Option.some.inj (hobject.symm.trans hobject')
  rw [hmembers] at hb
  exact absurd hb List.not_mem_nil

theorem not_transGen_of_no_members {heap : Heap T D} {a : Nat} {object : Object T D}
    (hobject : heap[a]? = some object) (hmembers : object.membersMap = []) (b : Nat) :
    ¬ Relation.TransGen heap.Holds a b := by
  intro h
  obtain ⟨c, hc, -⟩ := Relation.TransGen.head'_iff.mp h
  exact not_holds_of_no_members hobject hmembers c hc

/-- An entity with one member, and another entity. -/
def sourceAndTarget : Heap Unit Unit :=
  Runs.run (ObjectCall.step oneClass) [] [.create "s".toList () (), .create "m".toList () (),
    .aggregateMember 0 () (some 1), .create "t".toList () ()]

/-- The tree of the first. -/
def sourceTree : Entity Unit Unit :=
  .mk "s".toList () () [("m".toList, some (.mk "m".toList () () [] []))] [("m".toList, ())]

theorem built_sourceTree : Built sourceTree :=
  (Built.new "s".toList () ()).aggregate (Built.new "m".toList () ()) rfl

theorem represents_sourceTree : Represents sourceAndTarget (fun _ => True) sourceTree 0 := by
  simp only [sourceTree, Represents, RepresentsAll]
  exact ⟨trivial, _, rfl, ⟨rfl, rfl, rfl, rfl, by decide⟩, 1, [], rfl,
    ⟨trivial, _, rfl, ⟨rfl, rfl, rfl, rfl, by decide⟩, rfl⟩, rfl⟩

theorem copyPair_of_no_members {target : Nat} {object : Object Unit Unit}
    (htarget : sourceAndTarget[target]? = some object) (hmembers : object.membersMap = []) :
    CopyPair sourceAndTarget target 0 sourceTree :=
  ⟨ObjectCall.run_wellFormed oneClass _, represents_sourceTree, built_sourceTree,
    ⟨object, htarget, rfl⟩, not_transGen_of_no_members htarget hmembers 0⟩

end Heap

theorem copies_agree_iff_sourceAndTarget :
    CopiesAgree oneClass sourceAndTarget 2 0 sourceTree := by
  have hiff := copies_agree_iff oneClass sourceAndTarget 2 0 sourceTree
    (@copyPair_of_no_members 2 _ rfl rfl)
  -- the member of the source holds nothing
  refine hiff.mpr fun object other _ hother i key b hb hbelow => ?_
  obtain rfl := Option.some.inj hother
  obtain ⟨-, rfl⟩ : (key, some b) = ("m".toList, some 1) :=
    List.mem_singleton.mp (List.mem_of_getElem? hb)
  rcases Relation.ReflTransGen.cases_head hbelow with heq | ⟨c, hc, -⟩
  · exact absurd heq (by decide)
  · exact absurd hc (@not_holds_of_no_members Unit Unit sourceAndTarget 1 _ rfl rfl c)

/-- The entity is assigned to its own member, which then has its key: no constructor is there
under it. -/
theorem assignment_to_member_throws :
    ¬ ∀ (heap : Heap Unit Unit) (target source : Nat) (e : Entity Unit Unit),
      CopyPair heap target source e → CopiesAgree oneClass heap target source e := by
  intro h
  obtain ⟨levels, hagree⟩ := h sourceAndTarget 1 0 sourceTree (copyPair_of_no_members rfl rfl)
  obtain ⟨-, heap', hrun, -⟩ := hagree levels (Nat.le_refl levels)
  exact nomatch hrun

end Azulejo
