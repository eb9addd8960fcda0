import Azulejo.Interprocess.SharedMemory
import Azulejo.Lib.Ownership
import Mathlib.Tactic.FinCases

/-!
# Who owns a shared memory segment

Whatever the objects do, and in whatever order, each segment has exactly one owner among the live
objects, as long as the system gives a new segment the size it is asked for. `Ownership.Exclusive`
carries the induction; beside it, an object that holds no segment must not have its owner flag
set, since `Open` keeps the flag.
-/

namespace Azulejo

open Stateful Ownership

namespace ISharedMemory

variable {truncate : Int64 → Except Str Unit}

theorem owned_none {o : ISharedMemory} (h : o.shmem = none) : o.owned = none := by
  unfold owned
  rw [h]
  exact ite_self none

theorem owned_eq_some {o : ISharedMemory} {name : Str} :
    o.owned = some name ↔
      o.isShmemOwner = true ∧ ∃ shmem, o.shmem = some shmem ∧ shmem.name = name := by
  unfold owned
  cases o.isShmemOwner with
  | false => simp only [Bool.false_eq_true, if_false, reduceCtorEq, false_and]
  | true => simp only [if_true, Option.map_eq_some_iff, true_and]

/-- `Create` does nothing, or it makes a segment under a free name and owns it. -/
theorem create_cases {size : UInt64} (hsize : truncate size.toInt64 = .ok ()) (name : Str)
    (s : SharedMemoryState) :
    finalState ((create truncate name size).run s) = s ∨
      s.self.shmem = none ∧ s.system.names (cString name) = none ∧
        ∃ s', finalState ((create truncate name size).run s) = s' ∧
          s'.self = ⟨some ⟨cString name, s.system.fresh⟩, true⟩ ∧
          s'.system.names = Function.update s.system.names (cString name) (some s.system.fresh) := by
  obtain ⟨⟨shmem, owner⟩, system⟩ := s
  unfold create
  by_cases hzero : size = 0
  · left
    simp only [createWith, if_pos hzero]
    rfl
  by_cases hname : name = []
  · left
    simp only [createWith, if_neg hzero, if_pos hname]
    rfl
  cases shmem with
  | some held =>
    left
    simp only [createWith, if_neg hzero, if_neg hname]
    rfl
  | none =>
    cases hnames : system.names (cString name) with
    | some segment =>
      left
      simp only [createWith, if_neg hzero, if_neg hname, EStateM.run_bind, EStateM.run_get, hnames]
      rfl
    | none =>
      right
      have hnew : getSharedSize ⟨⟨some ⟨cString name, system.fresh⟩, owner⟩,
          system.add (cString name)⟩ = .ok ((system.add (cString name)).sizes system.fresh).toUInt64 :=
        rfl
      refine ⟨rfl, rfl, _, rfl, ?_⟩
      simp only [createWith, if_neg hzero, if_neg hname, EStateM.run_bind, EStateM.run_get,
        EStateM.run_set, hnames, lift_ok hnew]
      -- the new segment has size 0, but nothing here depends on whether it is made larger
      by_cases hless :
          ((system.add (cString name)).sizes system.fresh).toUInt64 < size.toInt64.toUInt64
      · simp only [if_pos hless, hsize]
        exact ⟨rfl, rfl⟩
      · simp only [if_neg hless]
        exact ⟨rfl, rfl⟩

/-- `Open` does nothing, or it gives an object without a segment one, and keeps the flag. -/
theorem openName_cases (name : Str) (s : SharedMemoryState) :
    finalState ((openName name).run s) = s ∨
      s.self.shmem = none ∧ ∃ shmem,
        finalState ((openName name).run s) = ⟨⟨some shmem, s.self.isShmemOwner⟩, s.system⟩ := by
  obtain ⟨⟨shmem, owner⟩, system⟩ := s
  cases shmem with
  | some held =>
    left
    rfl
  | none =>
    cases hnames : system.names (cString name) with
    | none =>
      left
      simp only [openName, EStateM.run_bind, EStateM.run_get, hnames]
      rfl
    | some segment =>
      right
      refine ⟨rfl, ⟨cString name, segment⟩, ?_⟩
      simp only [openName, EStateM.run_bind, EStateM.run_get, hnames]
      rfl

/-- `Destroy` of an object that does not own a segment changes nothing. -/
theorem destroy_of_owned_none {s : SharedMemoryState} (h : s.self.owned = none) :
    finalState (destroy.run s) = s := by
  obtain ⟨⟨shmem, owner⟩, system⟩ := s
  cases shmem with
  | none => rfl
  | some held =>
    cases owner with
    | false => rfl
    | true => exact absurd h (by simp [owned])

/-- `Destroy` of an owner removes its segment and lets go of it. -/
theorem destroy_of_owned_some {s : SharedMemoryState} {name : Str} (h : s.self.owned = some name) :
    finalState (destroy.run s) = ⟨new, s.system.remove name⟩ := by
  obtain ⟨⟨shmem, owner⟩, system⟩ := s
  obtain ⟨rfl, held, rfl, rfl⟩ := owned_eq_some.mp h
  rfl

theorem destructor_of_owned_none {s : SharedMemoryState} (h : s.self.owned = none) :
    destructor s = s.system := by
  obtain ⟨⟨shmem, owner⟩, system⟩ := s
  cases shmem with
  | none => rfl
  | some held =>
    cases owner with
    | false => rfl
    | true => exact absurd h (by simp [owned])

theorem destructor_of_owned_some {s : SharedMemoryState} {name : Str}
    (h : s.self.owned = some name) : destructor s = s.system.remove name := by
  obtain ⟨⟨shmem, owner⟩, system⟩ := s
  obtain ⟨rfl, held, rfl, rfl⟩ := owned_eq_some.mp h
  rfl

end ISharedMemory

namespace SharedMemoryWorld

open ISharedMemory

/-- The name each live object owns. -/
def ownedBy (w : SharedMemoryWorld) (id : Nat) : Option Str := (w.objects id).bind owned

theorem ownedBy_eq_some {w : SharedMemoryWorld} {id : Nat} {name : Str} :
    w.ownedBy id = some name ↔ w.Owns id name := by
  constructor
  · intro h
    obtain ⟨o, ho, hname⟩ := Option.bind_eq_some_iff.mp h
    obtain ⟨howner, shmem, hshmem, hheld⟩ := owned_eq_some.mp hname
    exact ⟨o, shmem, ho, howner, hshmem, hheld⟩
  · rintro ⟨o, shmem, ho, howner, hshmem, hheld⟩
    exact Option.bind_eq_some_iff.mpr ⟨o, ho, owned_eq_some.mpr ⟨howner, shmem, hshmem, hheld⟩⟩

/-- Replacing one object changes what that object owns. -/
theorem ownedBy_update (w : SharedMemoryWorld) (id : Nat) (o : Option ISharedMemory)
    (system : SharedMemorySystem) :
    ownedBy ⟨Function.update w.objects id o, system⟩ =
      Function.update w.ownedBy id (o.bind owned) := by
  funext j
  show (Function.update w.objects id o j).bind owned = _
  by_cases hj : j = id
  · rw [hj, Function.update_self, Function.update_self]
  · rw [Function.update_of_ne hj, Function.update_of_ne hj]
    rfl

/-- What holds of the objects and the system after any events. -/
structure WellOwned (w : SharedMemoryWorld) : Prop where
  holder : ∀ id o, w.objects id = some o → o.shmem = none → o.isShmemOwner = false
  exclusive : Exclusive w.ownedBy w.Exists

theorem wellOwned_initial : WellOwned initial where
  holder _ _ h := nomatch h
  exclusive := exclusive_none fun _ ⟨_, h⟩ => nomatch h

/-- The object under `id` becomes `o`, or goes when there is none. -/
def put (w : SharedMemoryWorld) (id : Nat) (o : Option ISharedMemory)
    (system : SharedMemorySystem) : SharedMemoryWorld :=
  ⟨Function.update w.objects id o, system⟩

variable {w : SharedMemoryWorld} {id : Nat}

/-- What holds of all live objects, and of the one that was put, holds of all. -/
theorem forall_put {Q : ISharedMemory → Prop} (h : ∀ j o', w.objects j = some o' → Q o')
    {o : Option ISharedMemory} (ho : ∀ o', o = some o' → Q o') (system : SharedMemorySystem) :
    ∀ j o', (w.put id o system).objects j = some o' → Q o' := by
  intro j o' hj
  change Function.update w.objects id o j = some o' at hj
  by_cases hji : j = id
  · rw [hji, Function.update_self] at hj
    exact ho o' hj
  · rw [Function.update_of_ne hji] at hj
    exact h j o' hj

/-- An object that owns nothing changes and still owns nothing. -/
theorem WellOwned.idle (h : WellOwned w) (hid : w.ownedBy id = none) {o : Option ISharedMemory}
    (ho : ∀ o', o = some o' → o'.shmem = none → o'.isShmemOwner = false)
    (hnone : o.bind owned = none) : WellOwned (w.put id o w.system) where
  holder := forall_put h.holder ho w.system
  exclusive := by
    rw [put, ownedBy_update, hnone]
    exact h.exclusive.idle hid

/-- An object that owns nothing comes to own a new segment. -/
theorem WellOwned.acquire (h : WellOwned w) (hid : w.ownedBy id = none) {o : ISharedMemory}
    {name : Str} (ho : o.owned = some name) (hfree : w.system.names name = none)
    {system : SharedMemorySystem} {segment : Nat}
    (hnames : system.names = Function.update w.system.names name (some segment)) :
    WellOwned (w.put id (some o) system) where
  holder := by
    apply forall_put h.holder
    rintro o' ⟨rfl⟩ hshmem
    rw [owned_none hshmem] at ho
    cases ho
  exclusive := by
    have habsent : ¬ w.Exists name := fun ⟨_, hsegment⟩ => by
      rw [hfree] at hsegment
      cases hsegment
    have hexists : (w.put id (some o) system).Exists = fun m => m = name ∨ w.Exists m := by
      funext m
      apply propext
      show (∃ segment, system.names m = some segment) ↔ _
      rw [hnames]
      by_cases hm : m = name
      · rw [hm, Function.update_self]
        exact ⟨fun _ => Or.inl rfl, fun _ => ⟨segment, rfl⟩⟩
      · rw [Function.update_of_ne hm]
        exact ⟨Or.inr, fun hexists => hexists.resolve_left hm⟩
    rw [hexists, put, ownedBy_update, Option.bind_some, ho]
    exact h.exclusive.acquire hid habsent

/-- An owner lets go of its segment, which is removed. -/
theorem WellOwned.release (h : WellOwned w) {name : Str} (hid : w.ownedBy id = some name)
    {o : Option ISharedMemory}
    (ho : ∀ o', o = some o' → o'.shmem = none → o'.isShmemOwner = false)
    (hnone : o.bind owned = none) : WellOwned (w.put id o (w.system.remove name)) where
  holder := forall_put h.holder ho _
  exclusive := by
    have hexists : (w.put id o (w.system.remove name)).Exists = fun m => m ≠ name ∧ w.Exists m := by
      funext m
      apply propext
      show (∃ segment, Function.update w.system.names name none m = some segment) ↔ _
      by_cases hm : m = name
      · rw [hm, Function.update_self]
        exact ⟨nofun, fun hexists => absurd rfl hexists.1⟩
      · rw [Function.update_of_ne hm]
        exact ⟨fun hexists => ⟨hm, hexists⟩, And.right⟩
    rw [hexists, put, ownedBy_update, hnone]
    exact h.exclusive.release hid

/-! ## One event -/

theorem call_eq_some {α : Type} {member : EStateM Exception SharedMemoryState α}
    {w' : SharedMemoryWorld} (h : w.call id member = some w') :
    ∃ o, w.objects id = some o ∧ ∃ s', finalState (member.run ⟨o, w.system⟩) = s' ∧
      w' = w.put id (some s'.self) s'.system := by
  obtain ⟨o, ho, hw'⟩ := Option.map_eq_some_iff.mp h
  exact ⟨o, ho, _, rfl, hw'.symm⟩

theorem put_self {o : ISharedMemory} (ho : w.objects id = some o) :
    w.put id (some o) w.system = w := by
  rw [put, ← ho, Function.update_eq_self]

theorem ownedBy_of_object {o : ISharedMemory} (ho : w.objects id = some o) :
    w.ownedBy id = o.owned := by
  rw [ownedBy, ho]
  rfl

variable {truncate : Int64 → Except Str Unit}

theorem construct_eq_some {w' : SharedMemoryWorld}
    (h : step truncate w (.construct id) = some w') :
    w.objects id = none ∧ w' = w.put id (some new) w.system := by
  cases hid : w.objects id with
  | some o => simp only [step, hid, reduceCtorEq] at h
  | none =>
    simp only [step, hid, Option.some.injEq] at h
    exact ⟨rfl, h.symm⟩

/-- The sizes that are asked for are granted. -/
def Granted (truncate : Int64 → Except Str Unit) : SharedMemoryEvent → Prop
  | .create _ _ size => truncate size.toInt64 = .ok ()
  | _ => True

theorem wellOwned_step {w' : SharedMemoryWorld} {e : SharedMemoryEvent} (hw : WellOwned w)
    (hsize : Granted truncate e) (h : step truncate w e = some w') : WellOwned w' := by
  cases e with
  | construct id =>
    obtain ⟨hid, rfl⟩ := construct_eq_some h
    apply hw.idle
    · rw [ownedBy, hid]
      rfl
    · rintro o' ⟨rfl⟩ _
      rfl
    · rfl
  | create id name size =>
    obtain ⟨o, ho, s', hs', rfl⟩ := call_eq_some h
    rcases create_cases hsize name ⟨o, w.system⟩ with hsame | ⟨hshmem, hfree, s'', hs'', hself, hnames⟩
    · rw [← hs', hsame, put_self ho]
      exact hw
    · obtain rfl : s' = s'' := hs'.symm.trans hs''
      have hid : w.ownedBy id = none := (ownedBy_of_object ho).trans (owned_none hshmem)
      rw [hself]
      exact hw.acquire hid rfl hfree hnames
  | openName id name =>
    obtain ⟨o, ho, s', hs', rfl⟩ := call_eq_some h
    rcases openName_cases name ⟨o, w.system⟩ with hsame | ⟨hshmem, shmem, hopened⟩
    · rw [← hs', hsame, put_self ho]
      exact hw
    · have hid : w.ownedBy id = none := (ownedBy_of_object ho).trans (owned_none hshmem)
      have hflag : o.isShmemOwner = false := hw.holder id o ho hshmem
      rw [← hs', hopened]
      apply hw.idle hid
      · rintro o' ⟨rfl⟩ hnone
        cases hnone
      · show owned ⟨some shmem, o.isShmemOwner⟩ = none
        rw [hflag]
        rfl
  | destroy id =>
    obtain ⟨o, ho, s', hs', rfl⟩ := call_eq_some h
    have hid := ownedBy_of_object ho
    cases howned : o.owned with
    | none =>
      rw [← hs', destroy_of_owned_none (s := ⟨o, w.system⟩) howned, put_self ho]
      exact hw
    | some name =>
      rw [← hs', destroy_of_owned_some (s := ⟨o, w.system⟩) howned]
      apply hw.release (hid.trans howned)
      · rintro o' ⟨rfl⟩ _
        rfl
      · rfl
  | destruct id =>
    obtain ⟨o, ho, rfl⟩ := Option.map_eq_some_iff.mp h
    have hid := ownedBy_of_object ho
    cases howned : o.owned with
    | none =>
      rw [destructor_of_owned_none (s := ⟨o, w.system⟩) howned]
      exact hw.idle (hid.trans howned) nofun rfl
    | some name =>
      rw [destructor_of_owned_some (s := ⟨o, w.system⟩) howned]
      exact hw.release (hid.trans howned) nofun rfl

/-- An object that is not the owner removes nothing, neither by `Destroy` nor when it goes. -/
theorem names_of_not_owner {w' : SharedMemoryWorld} {o : ISharedMemory}
    {e : SharedMemoryEvent} (ho : w.objects id = some o) (hflag : o.isShmemOwner = false)
    (he : e = .destroy id ∨ e = .destruct id) (h : step truncate w e = some w') :
    w'.system = w.system := by
  have howned : o.owned = none := by
    unfold owned
    rw [hflag]
    rfl
  rcases he with rfl | rfl
  · obtain ⟨o', ho', s', hs', rfl⟩ := call_eq_some h
    obtain rfl : o = o' := Option.some.inj (ho.symm.trans ho')
    rw [← hs', destroy_of_owned_none (s := ⟨o, w.system⟩) howned]
    rfl
  · obtain ⟨o', ho', rfl⟩ := Option.map_eq_some_iff.mp h
    obtain rfl : o = o' := Option.some.inj (ho.symm.trans ho')
    exact destructor_of_owned_none (s := ⟨o, w.system⟩) howned

/-! ## Every order of events -/

theorem wellOwned_after {es : List SharedMemoryEvent} (hsizes : ∀ e ∈ es, Granted truncate e)
    (h : Transitions.after (step truncate) initial es = some w) : WellOwned w := by
  exact Transitions.invariant WellOwned
    (fun _ _ _ hs hok hstep => wellOwned_step hs hok hstep) wellOwned_initial
    (Transitions.along_of_forall (fun _ => hsizes) initial) h

/-- After any events in which the sizes asked for are granted, a segment of a name exists exactly
when one live object is the owner and holds the name, no two objects own the same name, and an
object that is not the owner removes no segment. -/
theorem one_owner {es : List SharedMemoryEvent} (hsizes : ∀ e ∈ es, Granted truncate e)
    (h : Transitions.after (step truncate) initial es = some w) :
    (∀ name, w.Exists name ↔ ∃! id, w.Owns id name) ∧
      (∀ i j name, w.Owns i name → w.Owns j name → i = j) ∧
      ∀ id o e w', w.objects id = some o → o.isShmemOwner = false →
        (e = .destroy id ∨ e = .destruct id) → step truncate w e = some w' →
        ∀ name, w.Exists name → w'.Exists name := by
  have hw := wellOwned_after hsizes h
  refine ⟨fun name => ?_, fun i j name hi hj => ?_, fun id o e w' ho hflag he hstep name => ?_⟩
  · rw [hw.exclusive.existsUnique]
    simp only [ownedBy_eq_some]
  · exact hw.exclusive.unique i j name (ownedBy_eq_some.mpr hi) (ownedBy_eq_some.mpr hj)
  · intro hexists
    rw [Exists, names_of_not_owner ho hflag he hstep]
    exact hexists

/-- `ftruncate` refuses a negative size. -/
def truncateSegment (size : Int64) : Except Str Unit :=
  if size < 0 then .error "Invalid argument".toList else .ok ()

/-- Two objects share a segment; the one that opened it is destroyed first, then it creates the
name again after the owner has gone. -/
def twoObjects : List SharedMemoryEvent :=
  [.construct 0, .construct 1, .create 0 "shmem".toList 1024, .openName 1 "shmem".toList,
    .create 1 "shmem".toList 1024, .destroy 1, .destroy 0, .destruct 1, .construct 1,
    .create 1 "shmem".toList 512]

theorem one_owner_twoObjects :
    ∃ w, Transitions.after (step truncateSegment) initial twoObjects = some w ∧
      w.Exists "shmem".toList ∧ w.Owns 1 "shmem".toList ∧ ¬ w.Owns 0 "shmem".toList ∧
      (∀ name, w.Exists name ↔ ∃! id, w.Owns id name) ∧
      (∀ i j name, w.Owns i name → w.Owns j name → i = j) ∧
      ∀ id o e w', w.objects id = some o → o.isShmemOwner = false →
        (e = .destroy id ∨ e = .destruct id) → step truncateSegment w e = some w' →
        ∀ name, w.Exists name → w'.Exists name := by
  have hsizes : ∀ e ∈ twoObjects, Granted truncateSegment e := by
    intro e he
    fin_cases he <;> first | exact trivial | rfl
  refine ⟨_, rfl, ⟨_, rfl⟩, ⟨_, _, rfl, rfl, rfl, rfl⟩, ?_, one_owner hsizes rfl⟩
  rintro ⟨o, shmem, ho, hflag, -⟩
  cases ho
  cases hflag

end SharedMemoryWorld

end Azulejo
