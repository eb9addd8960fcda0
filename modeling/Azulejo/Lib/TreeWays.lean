import Azulejo.Lib.LabelledTree

/-!
# The ways down a tree

A way down is the list of the data on it, from the root to some node. Whether the ways to all
nodes, in pre-order, are pairwise apart is decided locally when the relation does not depend on
a common beginning: every node is apart from its parent, and what lies below one child is apart
from what lies below the children after it (`pairwise_ways_iff`).
-/

namespace LTree

variable {κ δ : Type}

mutual
/-- The data of all nodes in pre-order. -/
def values : LTree κ δ → List δ
  | node d cs => d :: valuesIn cs
def valuesIn : List (κ × LTree κ δ) → List δ
  | [] => []
  | (_, t) :: cs => values t ++ valuesIn cs
end

mutual
/-- The ways to all nodes in pre-order. -/
def ways : LTree κ δ → List (List δ)
  | node d cs => [d] :: (waysIn cs).map (d :: ·)
def waysIn : List (κ × LTree κ δ) → List (List δ)
  | [] => []
  | (_, t) :: cs => ways t ++ waysIn cs
end

theorem exists_cons_of_mem_ways {t : LTree κ δ} {w : List δ} (h : w ∈ t.ways) :
    ∃ v, w = t.data :: v := by
  obtain ⟨d, cs⟩ := t
  rw [ways, List.mem_cons, List.mem_map] at h
  rcases h with rfl | ⟨v, _, rfl⟩
  · exact ⟨[], rfl⟩
  · exact ⟨v, rfl⟩

/-- A relation between ways that a common beginning does not change. -/
structure Cancels (R : List δ → List δ → Prop) : Prop where
  cons : ∀ d v w, R (d :: v) (d :: w) ↔ R v w
  extend : ∀ d w, R [] [d] → R [] (d :: w)

mutual
/-- Every node is apart from its parent, and so is what lies below one child from what lies
below the next ones. -/
def Separated (R : List δ → List δ → Prop) : LTree κ δ → Prop
  | node _ cs => SeparatedIn R cs
def SeparatedIn (R : List δ → List δ → Prop) : List (κ × LTree κ δ) → Prop
  | [] => True
  | (_, t) :: cs => R [] [t.data] ∧ Separated R t ∧ (∀ v ∈ ways t, ∀ w ∈ waysIn cs, R v w) ∧
      SeparatedIn R cs
end

variable {R : List δ → List δ → Prop}

theorem Cancels.forall_ways_iff (hR : Cancels R) (t : LTree κ δ) :
    (∀ w ∈ t.ways, R [] w) ↔ R [] [t.data] := by
  constructor
  · intro h
    obtain ⟨d, cs⟩ := t
    exact h [d] (by rw [ways]; exact List.mem_cons_self)
  · intro h w hw
    obtain ⟨v, rfl⟩ := exists_cons_of_mem_ways hw
    exact hR.extend t.data v h

mutual
theorem pairwise_ways_iff (hR : Cancels R) : ∀ t : LTree κ δ, t.ways.Pairwise R ↔ t.Separated R
  | node d cs => by
    have hroot : (∀ w ∈ (waysIn cs).map (d :: ·), R [d] w) ↔ ∀ w ∈ waysIn cs, R [] w := by
      simp only [List.forall_mem_map, hR.cons]
    rw [ways, Separated, List.pairwise_cons, List.pairwise_map, hroot,
      ← pairwise_waysIn_iff hR cs]
    simp only [hR.cons]
theorem pairwise_waysIn_iff (hR : Cancels R) : ∀ cs : List (κ × LTree κ δ),
    ((∀ w ∈ waysIn cs, R [] w) ∧ (waysIn cs).Pairwise R) ↔ SeparatedIn R cs
  | [] => by simp [waysIn, SeparatedIn]
  | (k, t) :: cs => by
    rw [waysIn, SeparatedIn, List.forall_mem_append, List.pairwise_append, hR.forall_ways_iff,
      pairwise_ways_iff hR t, ← pairwise_waysIn_iff hR cs]
    constructor
    · rintro ⟨⟨hroot, hlater⟩, hfirst, hpairs, happart⟩
      exact ⟨hroot, hfirst, happart, hlater, hpairs⟩
    · rintro ⟨hroot, hfirst, happart, hlater, hpairs⟩
      exact ⟨⟨hroot, hlater⟩, hfirst, hpairs, happart⟩
end

end LTree
