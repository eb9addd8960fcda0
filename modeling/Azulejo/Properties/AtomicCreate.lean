import Azulejo.Properties.SharedMemoryOwners

/-!
# Creating shared memory that fails

`Create` keeps the new segment before it gives it a size, and records the ownership after that.
When the system refuses the size, the object holds a segment it does not own, which nothing ever
removes.
-/

namespace Azulejo

open Stateful

namespace ISharedMemory

variable {permits : Str → Bool} {truncate : Int64 → Except Str Unit} {name : Str} {size : UInt64}

/-- If `Create` throws, the object has no segment and is no owner, the names stand for what they
stood for, and the object can create any segment that the system grants then. -/
def CreateAtomic (permits : Str → Bool) (truncate : Int64 → Except Str Unit) (name : Str)
    (size : UInt64) (s : SharedMemoryState) : Prop :=
  ∀ err s', (createWith permits truncate name size).run s = .error err s' →
    s'.self.shmem = none ∧ s'.self.isShmemOwner = false ∧ s'.system.names = s.system.names ∧
      ∀ (permits' : Str → Bool) (truncate' : Int64 → Except Str Unit) (name' : Str)
        (size' : UInt64), size' ≠ 0 → name' ≠ [] → permits' (cString name') = true →
        s'.system.names (cString name') = none → truncate' size'.toInt64 = .ok () →
        ∃ s'', (createWith permits' truncate' name' size').run s' = .ok () s''

/-- The system makes a segment of the name for an object without one. -/
structure Creates (permits : Str → Bool) (name : Str) (size : UInt64)
    (system : SharedMemorySystem) : Prop where
  nonempty : size ≠ 0
  named : name ≠ []
  permitted : permits (cString name) = true
  free : system.names (cString name) = none

/-- `Create` when it gets to the size of the new segment. -/
theorem createWith_creates {system : SharedMemorySystem} (h : Creates permits name size system)
    (owner : Bool) :
    (createWith permits truncate name size).run ⟨⟨none, owner⟩, system⟩ =
      match truncate size.toInt64 with
      | .error what => .error (.exception what)
        ⟨⟨some ⟨cString name, system.fresh⟩, owner⟩, system.add (cString name)⟩
      | .ok () => .ok () ⟨⟨some ⟨cString name, system.fresh⟩, true⟩,
        (system.add (cString name)).setSize system.fresh size.toInt64⟩ := by
  have hnew : getSharedSize ⟨⟨some ⟨cString name, system.fresh⟩, owner⟩,
      system.add (cString name)⟩ = .ok 0 := by
    show Except.ok (Function.update system.sizes system.fresh 0 system.fresh).toUInt64 = _
    rw [Function.update_self]
    rfl
  have hless : (0 : UInt64) < size.toInt64.toUInt64 := by
    rw [UInt64.toUInt64_toInt64]
    exact UInt64.pos_iff_ne_zero.mpr h.nonempty
  unfold createWith
  rw [if_neg h.nonempty, if_neg h.named, bind_ok (EStateM.run_get _)]
  simp only [h.permitted, h.free]
  rw [bind_ok (EStateM.run_set _ _), bind_ok (EStateM.run_get _), bind_ok (lift_ok hnew _)]
  simp only [if_pos hless]
  cases truncate size.toInt64 with
  | error what => rfl
  | ok u => rfl

/-- Without a size or a name it throws at once. -/
theorem createWith_invalid (h : size = 0 ∨ name = []) (s : SharedMemoryState) :
    ∃ err, (createWith permits truncate name size).run s = .error err s := by
  unfold createWith
  by_cases hsize : size = 0
  · rw [if_pos hsize]
    exact ⟨_, rfl⟩
  · rw [if_neg hsize, if_pos (h.resolve_left hsize)]
    exact ⟨_, rfl⟩

/-- Otherwise it throws and has done nothing. -/
theorem createWith_refused {system : SharedMemorySystem} (h : ¬ Creates permits name size system)
    (owner : Bool) :
    ∃ err, (createWith permits truncate name size).run ⟨⟨none, owner⟩, system⟩ =
      .error err ⟨⟨none, owner⟩, system⟩ := by
  by_cases hinvalid : size = 0 ∨ name = []
  · exact createWith_invalid hinvalid _
  obtain ⟨hsize, hname⟩ := not_or.mp hinvalid
  unfold createWith
  rw [if_neg hsize, if_neg hname, bind_ok (EStateM.run_get _)]
  cases hpermits : permits (cString name) with
  | false =>
    simp only [hpermits]
    exact ⟨_, rfl⟩
  | true =>
    cases hfree : system.names (cString name) with
    | none => exact absurd ⟨hsize, hname, hpermits, hfree⟩ h
    | some segment =>
      simp only [hpermits, hfree]
      exact ⟨_, rfl⟩

/-- An object that has a segment keeps it and its flag. -/
theorem createWith_allocated {s : SharedMemoryState} {shmem : SharedMemoryObject}
    (h : s.self.shmem = some shmem) :
    ∃ err, (createWith permits truncate name size).run s = .error err s := by
  by_cases hinvalid : size = 0 ∨ name = []
  · exact createWith_invalid hinvalid s
  obtain ⟨hsize, hname⟩ := not_or.mp hinvalid
  unfold createWith
  rw [if_neg hsize, if_neg hname, bind_ok (EStateM.run_get _)]
  simp only [h]
  exact ⟨_, rfl⟩

/-- An object without a segment is as it was made. -/
def NewUnlessAllocated (o : ISharedMemory) : Prop := o.shmem = none → o = new

/-- `Create` leaves its object alone or with a segment. -/
theorem createWith_self (s : SharedMemoryState) :
    (finalState ((createWith permits truncate name size).run s)).self = s.self ∨
      (finalState ((createWith permits truncate name size).run s)).self.shmem ≠ none := by
  obtain ⟨⟨shmem, owner⟩, system⟩ := s
  cases shmem with
  | some shmem =>
    obtain ⟨err, hrun⟩ := createWith_allocated (s := ⟨⟨some shmem, owner⟩, system⟩) rfl
    rw [hrun]
    exact Or.inl rfl
  | none =>
    by_cases h : Creates permits name size system
    · right
      rw [createWith_creates h]
      cases truncate size.toInt64 <;> exact Option.some_ne_none _
    · obtain ⟨err, hrun⟩ := createWith_refused h owner
      rw [hrun]
      exact Or.inl rfl

theorem NewUnlessAllocated.of_self {o o' : ISharedMemory} (h : NewUnlessAllocated o)
    (hself : o' = o ∨ o'.shmem ≠ none) : NewUnlessAllocated o' := by
  rcases hself with rfl | hshmem
  · exact h
  · exact fun hnone => absurd hnone hshmem

theorem openName_self (name : Str) (s : SharedMemoryState) :
    (finalState ((openName name).run s)).self = s.self ∨
      (finalState ((openName name).run s)).self.shmem ≠ none := by
  rcases openName_cases name s with hsame | ⟨_, shmem, hopened⟩
  · rw [hsame]
    exact Or.inl rfl
  · rw [hopened]
    exact Or.inr (Option.some_ne_none _)

theorem destroy_self (s : SharedMemoryState) :
    (finalState (destroy.run s)).self = s.self ∨ (finalState (destroy.run s)).self = new := by
  cases howned : s.self.owned with
  | none =>
    rw [destroy_of_owned_none howned]
    exact Or.inl rfl
  | some name =>
    rw [destroy_of_owned_some howned]
    exact Or.inr rfl

end ISharedMemory

namespace SharedMemoryWorld

open ISharedMemory

variable {truncate : Int64 → Except Str Unit}

/-- Every live object without a segment is as it was made. -/
def UnallocatedNew (w : SharedMemoryWorld) : Prop :=
  ∀ id o, w.objects id = some o → NewUnlessAllocated o

theorem unallocatedNew_step {w w' : SharedMemoryWorld} {e : SharedMemoryEvent}
    (hw : UnallocatedNew w) (h : step truncate w e = some w') : UnallocatedNew w' := by
  cases e with
  | construct id =>
    obtain ⟨-, rfl⟩ := construct_eq_some h
    refine forall_put hw ?_ _
    rintro o' ⟨rfl⟩
    exact fun _ => rfl
  | create id name size =>
    obtain ⟨o, ho, s', hs', rfl⟩ := call_eq_some h
    have hself := @createWith_self (fun _ => true) truncate name size ⟨o, w.system⟩
    refine forall_put hw ?_ _
    rintro o' ⟨rfl⟩
    rw [← hs']
    exact (hw id o ho).of_self hself
  | openName id name =>
    obtain ⟨o, ho, s', hs', rfl⟩ := call_eq_some h
    have hself := openName_self name ⟨o, w.system⟩
    refine forall_put hw ?_ _
    rintro o' ⟨rfl⟩
    rw [← hs']
    exact (hw id o ho).of_self hself
  | destroy id =>
    obtain ⟨o, ho, s', hs', rfl⟩ := call_eq_some h
    refine forall_put hw ?_ _
    rintro o' ⟨rfl⟩
    rw [← hs']
    rcases destroy_self ⟨o, w.system⟩ with hself | hself
    · rw [hself]
      exact hw id o ho
    · rw [hself]
      exact fun _ => rfl
  | destruct id =>
    obtain ⟨o, ho, rfl⟩ := Option.map_eq_some_iff.mp h
    refine forall_put hw ?_ _
    rintro o' ⟨⟩

theorem unallocatedNew_after {es : List SharedMemoryEvent} {w : SharedMemoryWorld}
    (h : Transitions.after (step truncate) initial es = some w) : UnallocatedNew w :=
  Transitions.Reaches.invariant UnallocatedNew (fun _ _ _ => unallocatedNew_step)
    (by rintro _ _ ⟨⟩) ⟨es, h⟩

/-- **When a failed creation leaves nothing behind.** For an object without a segment that any
events have led to, in any system: nothing leaves a trace but a refusal of the size, which comes
after the segment has been made. -/
theorem createAtomic_iff {es : List SharedMemoryEvent} {w : SharedMemoryWorld}
    (h : Transitions.after (step truncate) initial es = some w) {id : Nat} {o : ISharedMemory}
    (ho : w.objects id = some o) (hshmem : o.shmem = none) (permits : Str → Bool)
    (truncate' : Int64 → Except Str Unit) (name : Str) (size : UInt64)
    (system : SharedMemorySystem) :
    CreateAtomic permits truncate' name size ⟨o, system⟩ ↔
      size = 0 ∨ name = [] ∨ permits (cString name) = false ∨
        (∃ segment, system.names (cString name) = some segment) ∨
        truncate' size.toInt64 = .ok () := by
  obtain rfl : o = new := unallocatedNew_after h id o ho hshmem
  by_cases hcreates : Creates permits name size system
  · have hrun := @createWith_creates permits truncate' name size system hcreates false
    constructor
    · intro hatomic
      cases htruncate : truncate' size.toInt64 with
      | ok u => exact Or.inr (Or.inr (Or.inr (Or.inr rfl)))
      | error what =>
        rw [htruncate] at hrun
        cases (hatomic _ _ hrun).1
    · rintro (hsize | hname | hpermits | ⟨segment, hnames⟩ | htruncate)
      · exact absurd hsize hcreates.nonempty
      · exact absurd hname hcreates.named
      · rw [hcreates.permitted] at hpermits
        cases hpermits
      · rw [hcreates.free] at hnames
        cases hnames
      · intro err s' hthrow
        rw [htruncate] at hrun
        rw [show (new : ISharedMemory) = ⟨none, false⟩ from rfl, hrun] at hthrow
        cases hthrow
  · refine iff_of_true ?_ ?_
    · obtain ⟨err, hrun⟩ := @createWith_refused permits truncate' name size system hcreates false
      intro err' s' hthrow
      rw [show (new : ISharedMemory) = ⟨none, false⟩ from rfl, hrun] at hthrow
      cases hthrow
      refine ⟨rfl, rfl, rfl, fun permits' truncate' name' size' hsize hname hpermits hfree hok => ?_⟩
      have hlater := @createWith_creates permits' truncate' name' size' system
        ⟨hsize, hname, hpermits, hfree⟩ false
      rw [hok] at hlater
      exact ⟨_, hlater⟩
    · by_contra hnone
      simp only [not_or, not_exists] at hnone
      obtain ⟨hsize, hname, hpermits, hfree, _⟩ := hnone
      refine hcreates ⟨hsize, hname, Bool.not_eq_false _ |>.mp hpermits, ?_⟩
      exact Option.eq_none_iff_forall_ne_some.mpr hfree

theorem createAtomic_new :
    CreateAtomic (fun _ => true) truncateSegment "shmem".toList 1024
        ⟨new, ⟨fun _ => none, fun _ => 0, 0⟩⟩ ↔
      (1024 : UInt64) = 0 ∨ "shmem".toList = [] ∨ true = false ∨
        (∃ segment, (none : Option Nat) = some segment) ∨
        truncateSegment (1024 : UInt64).toInt64 = .ok () :=
  @createAtomic_iff truncateSegment [.construct 0] _ rfl 0 new rfl
    rfl (fun _ => true) truncateSegment "shmem".toList 1024 ⟨fun _ => none, fun _ => 0, 0⟩

/-- A new object asks for 2⁶³ bytes, which is a negative `offset_t`. -/
theorem create_not_atomic :
    ¬ CreateAtomic (fun _ => true) truncateSegment "shmem".toList 0x8000000000000000
      ⟨new, ⟨fun _ => none, fun _ => 0, 0⟩⟩ := by
  intro h
  have hrun := @createWith_creates (fun _ => true) truncateSegment "shmem".toList 0x8000000000000000
    ⟨fun _ => none, fun _ => 0, 0⟩ ⟨by decide, by decide, rfl, rfl⟩ false
  have hrefused : truncateSegment (0x8000000000000000 : UInt64).toInt64 =
      .error "Invalid argument".toList := by decide
  rw [hrefused] at hrun
  cases (h _ _ hrun).1

end SharedMemoryWorld

end Azulejo
