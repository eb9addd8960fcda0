import Azulejo.Entities.IStreamableEntity

/-!
# Rejected trees

`operator<<` checks the members of an entity only when the entity's turn has come, and by then it
has written all the entities before it.
-/

namespace Azulejo

open Stateful LevelOrder

namespace IStreamableEntity

variable {T D : Type} (S : Classes T D)

/-- If a member at some depth is null or not streamable, `operator<<` throws and has written
nothing. -/
def RejectedSilently (e : Entity T D) : Prop :=
  ¬ AllStreamable S e → ∀ out, ∃ err, (operatorOut S e).run out = .error err out

/-- A tree with such a member is rejected, after all entities before the one that has it have been
written. -/
theorem operatorOut_rejects {e : Entity T D} (h : ¬ AllStreamable S e) (out : Str) :
    ∃ before e' after key, levelOrder e = before ++ e' :: after ∧
      (∀ e'' ∈ before, MembersStreamable S e'') ∧ ¬ MembersStreamable S e' ∧
      (operatorOut S e).run out = .error (nonStreamable key) (out ++ written S before) := by
  have hqueue : ([e].flatMap entities).length ≤ (entities e).length := by simp
  have hrun := streamQueue_run S hqueue out
  rw [visits_eq (Nat.le_refl _)] at hrun
  refine hrun.resolve_left ?_
  rintro ⟨hall, _⟩
  exact h fun e' he' => hall e' ((levelOrder_perm e).mem_iff.mpr he')

/-- The root is visited first. -/
theorem levelOrder_eq_cons (e : Entity T D) : ∃ below, levelOrder e = e :: below := by
  unfold levelOrder
  rw [entities_eq, List.length_cons, levelOrder_succ]
  exact ⟨_, rfl⟩

theorem written_eq_nil {es : List (Entity T D)} (h : written S es = []) : es = [] := by
  cases es with
  | nil => rfl
  | cons e es =>
    rw [written_cons] at h
    have hdelim := (List.append_eq_nil_iff.mp (List.append_eq_nil_iff.mp h).1).2
    cases hdelim

/-- **A tree is rejected before anything is written just if the root is at fault.** -/
theorem rejectedSilently_iff (e : Entity T D) :
    RejectedSilently S e ↔ (¬ AllStreamable S e → ¬ MembersStreamable S e) := by
  constructor
  · intro h hbad
    obtain ⟨err, hsilent⟩ := h hbad []
    obtain ⟨before, e', after, key, horder, _, he', hrun⟩ := operatorOut_rejects S hbad []
    rw [hsilent] at hrun
    have hwritten : ([] : Str) = [] ++ written S before := (EStateM.Result.error.inj hrun).2
    obtain rfl : before = [] := written_eq_nil S hwritten.symm
    obtain ⟨below, hroot⟩ := levelOrder_eq_cons e
    rw [hroot] at horder
    rw [(List.cons.inj horder).1]
    exact he'
  · intro h hbad out
    obtain ⟨before, e', after, key, horder, hbefore, _, hrun⟩ := operatorOut_rejects S hbad out
    obtain ⟨below, hroot⟩ := levelOrder_eq_cons e
    rw [hroot] at horder
    cases before with
    | nil => exact ⟨_, by rw [hrun]; exact congrArg _ (List.append_nil out)⟩
    | cons first before =>
      obtain rfl : e = first := (List.cons.inj horder).1
      exact absurd (hbefore e List.mem_cons_self) (h hbad)

/-- A member of a member that is not streamable. -/
theorem rejected_after_writing :
    ¬ RejectedSilently (⟨id, Entity.key⟩ : Classes Bool Unit)
      (.mk ['a'] true () [(['b'], some (.mk ['b'] true ()
        [(['c'], some (.mk ['c'] false () [] []))] []))] []) := by
  intro h
  obtain ⟨err, hsilent⟩ := h (by unfold AllStreamable; decide) []
  have hrun : EStateM.Result.error (nonStreamable ['c']) "a:".toList =
      (.error err [] : EStateM.Result Exception Str Unit) := hsilent
  cases (EStateM.Result.error.inj hrun).2

end IStreamableEntity

end Azulejo
