import Mathlib.Data.List.Flatten
import Mathlib.Data.List.Perm.Basic

/-!
# The order in which a queue visits a forest

A loop takes the front of a queue and appends its children, until the queue is empty. Over a
forest it visits the levels one after the other (`visits_eq_levelOrder`), each node once
(`levelOrder_perm`), in as many steps as there are nodes. The queue is always the rest of a
level followed by the children of what has been visited of it (`visits_append`).
-/

namespace LevelOrder

variable {α : Type} (children : α → List α)

/-- The nodes a queue loop visits, in order, in at most the given number of steps. -/
def visits : Nat → List α → List α
  | _, [] => []
  | 0, _ :: _ => []
  | fuel + 1, front :: queue => front :: visits fuel (queue ++ children front)

/-- The nodes at a depth: siblings in order, grouped as their parents are. -/
def level : Nat → List α → List α
  | 0, forest => forest
  | k + 1, forest => level k (forest.flatMap children)

/-- The levels from the roots down. -/
def levelOrder (levels : Nat) (forest : List α) : List α :=
  (List.range levels).flatMap fun k => level children k forest

@[simp] theorem visits_nil (fuel : Nat) : visits children fuel [] = [] := by
  cases fuel <;> rfl

theorem levelOrder_succ (levels : Nat) (forest : List α) :
    levelOrder children (levels + 1) forest =
      forest ++ levelOrder children levels (forest.flatMap children) := by
  unfold levelOrder
  rw [List.range_succ_eq_map, List.flatMap_cons, List.flatMap_map]
  rfl

@[simp] theorem levelOrder_nil (levels : Nat) : levelOrder children levels [] = [] := by
  induction levels with
  | zero => rfl
  | succ levels ih => rw [levelOrder_succ, List.flatMap_nil, ih, List.append_nil]

/-- The queue holds the rest of a level, and then the children of what the loop has visited of
it. -/
theorem visits_append (rest done : List α) (fuel : Nat) :
    visits children (rest.length + fuel) (rest ++ done.flatMap children) =
      rest ++ visits children fuel ((done ++ rest).flatMap children) := by
  induction rest generalizing done with
  | nil => simp
  | cons front rest ih =>
    have hqueue : rest ++ done.flatMap children ++ children front =
        rest ++ (done ++ [front]).flatMap children := by
      rw [List.flatMap_append, List.flatMap_singleton, List.append_assoc]
    have hdone : done ++ front :: rest = done ++ [front] ++ rest := by simp
    rw [List.length_cons, Nat.add_right_comm, List.cons_append, visits, hqueue, ih, hdone,
      List.cons_append]

/-- A whole level is visited before the next one. -/
theorem visits_level (forest : List α) (fuel : Nat) :
    visits children (forest.length + fuel) forest =
      forest ++ visits children fuel (forest.flatMap children) := by
  have hvisits := visits_append children forest [] fuel
  rwa [List.flatMap_nil, List.append_nil, List.nil_append] at hvisits

/-! ## Finite forests -/

section Finite

variable {children} {nodes : α → List α}
  (hnodes : ∀ a, nodes a = a :: (children a).flatMap nodes)

include hnodes

/-- The nodes of a forest are its roots and the nodes below them. -/
theorem flatMap_nodes_perm (forest : List α) :
    (forest.flatMap nodes).Perm (forest ++ (forest.flatMap children).flatMap nodes) := by
  induction forest with
  | nil => exact List.Perm.nil
  | cons a forest ih =>
    rw [List.flatMap_cons, List.flatMap_cons, List.flatMap_append, hnodes a]
    simp only [List.cons_append]
    refine List.Perm.cons a ?_
    exact (ih.append_left _).trans (List.perm_append_comm_assoc _ _ _)

theorem length_flatMap_nodes (forest : List α) :
    (forest.flatMap nodes).length =
      forest.length + ((forest.flatMap children).flatMap nodes).length := by
  rw [(flatMap_nodes_perm hnodes forest).length_eq, List.length_append]

/-- There are no more levels than nodes. -/
theorem levelOrder_perm {levels : Nat} {forest : List α}
    (hlevels : (forest.flatMap nodes).length ≤ levels) :
    (levelOrder children levels forest).Perm (forest.flatMap nodes) := by
  induction levels generalizing forest with
  | zero =>
    rw [List.eq_nil_of_length_eq_zero (Nat.le_zero.mp hlevels)]
    exact List.Perm.nil
  | succ levels ih =>
    rw [levelOrder_succ]
    cases forest with
    | nil => simp
    | cons a forest =>
      have hlength := length_flatMap_nodes hnodes (a :: forest)
      rw [List.length_cons] at hlength
      have hbelow : (((a :: forest).flatMap children).flatMap nodes).length ≤ levels := by omega
      exact ((ih hbelow).append_left _).trans (flatMap_nodes_perm hnodes _).symm

/-- **A queue loop visits a forest level by level**, in any number of steps that is not below
the number of nodes. -/
theorem visits_eq_levelOrder {fuel levels : Nat} {forest : List α}
    (hfuel : (forest.flatMap nodes).length ≤ fuel)
    (hlevels : (forest.flatMap nodes).length ≤ levels) :
    visits children fuel forest = levelOrder children levels forest := by
  induction levels generalizing fuel forest with
  | zero =>
    have hnone := List.eq_nil_of_length_eq_zero (Nat.le_zero.mp hlevels)
    cases forest with
    | nil => simp
    | cons a forest =>
      rw [List.flatMap_cons, hnodes a] at hnone
      cases hnone
  | succ levels ih =>
    cases forest with
    | nil => simp
    | cons a forest =>
      have hlength := length_flatMap_nodes hnodes (a :: forest)
      obtain ⟨more, rfl⟩ : ∃ more, fuel = (a :: forest).length + more :=
        Nat.exists_eq_add_of_le (by omega)
      rw [List.length_cons] at hlength hfuel
      have hbelow : (((a :: forest).flatMap children).flatMap nodes).length ≤ levels := by omega
      rw [visits_level, levelOrder_succ, ih (by omega) hbelow]

end Finite

end LevelOrder
