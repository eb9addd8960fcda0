import Azulejo.Entities.IStreamableEntity

/-!
# The order of streaming

`operator<<` on a tree whose members are all streamable writes the entities level by level, each
once.
-/

namespace Azulejo

open Stateful

namespace IStreamableEntity

variable {T D : Type} (S : Classes T D)

/-- **Streaming is breadth-first and complete.** On a tree of streamable entities the loop ends
after as many turns as there are entities, however many it is given, and has then written
`ToString()` and the delimiter of each entity in level order, which names each entity of the tree
once. -/
theorem operatorOut_writes_level_order {e : Entity T D} (h : AllStreamable S e) (out : Str) :
    (operatorOut S e).run out =
        .ok () (out ++ (levelOrder e).flatMap fun e' => S.toString e' ++ [DELIM]) ∧
      (∀ fuel, (entities e).length ≤ fuel →
        (streamQueue S fuel [e]).run out = (operatorOut S e).run out) ∧
      (levelOrder e).Perm (entities e) := by
  have hrun : ∀ fuel, (entities e).length ≤ fuel → (streamQueue S fuel [e]).run out =
      .ok () (out ++ written S (levelOrder e)) := by
    intro fuel hfuel
    have hqueue : ([e].flatMap entities).length ≤ fuel := by simpa using hfuel
    rcases streamQueue_run S hqueue out with ⟨_, hrun⟩ |
      ⟨before, e', after, key, hvisits, _, he', _⟩
    · rw [hrun, visits_eq hfuel]
    · rw [visits_eq hfuel] at hvisits
      have hmem : e' ∈ entities e := by
        rw [← (levelOrder_perm e).mem_iff, hvisits]
        simp
      exact absurd (h e' hmem) he'
  have hall := hrun _ (Nat.le_refl _)
  refine ⟨hall, fun fuel hfuel => ?_, levelOrder_perm e⟩
  rw [hrun fuel hfuel]
  exact hall.symm

/-- Entities that stream their key; all classes but one are streamable. -/
def keyClasses : Classes Bool Unit := ⟨id, Entity.key⟩

/-- A root with the members `b`, which has a member `d`, and `c`. -/
def smallTree : Entity Bool Unit :=
  .mk ['a'] true () [(['b'], some (.mk ['b'] true () [(['d'], some (.mk ['d'] true () [] []))] [])),
    (['c'], some (.mk ['c'] true () [] []))] []

theorem smallTree_writes_level_order :
    (operatorOut keyClasses smallTree).run [] =
        .ok () ([] ++ (levelOrder smallTree).flatMap fun e' => keyClasses.toString e' ++ [DELIM]) ∧
      (∀ fuel, (entities smallTree).length ≤ fuel →
        (streamQueue keyClasses fuel [smallTree]).run [] =
          (operatorOut keyClasses smallTree).run []) ∧
      (levelOrder smallTree).Perm (entities smallTree) :=
  operatorOut_writes_level_order keyClasses (by
    unfold AllStreamable
    decide) []

example : (operatorOut keyClasses smallTree).run [] = .ok () "a:b:c:d:".toList := rfl

end IStreamableEntity

end Azulejo
