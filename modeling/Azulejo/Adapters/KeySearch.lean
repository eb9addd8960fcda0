import Azulejo.Adapters.Traversal

/-!
# The search for a key

`getKeyPath` finds the first node with a plain key in pre-order and returns its dotted path, from
which `getParentKeyPath` takes the last key off.
-/

namespace Azulejo

open SeparatedWords

/-- Every key of the hierarchy can be carried by a dotted path. -/
inductive PlainTree : Ptree → Prop where
  | node {d : Str} {cs : List (Key × Ptree)} (plain : ∀ p ∈ cs, PlainKey p.1)
      (children : ∀ p ∈ cs, PlainTree p.2) : PlainTree (.node d cs)

theorem PlainTree.of_lookup {t c : Ptree} {k : Key} (h : PlainTree t)
    (hc : List.lookup k t.children = some c) : PlainKey k ∧ PlainTree c := by
  cases h with
  | node plain children =>
    have hmem := AssocList.lookup_mem hc
    exact ⟨plain (k, c) hmem, children (k, c) hmem⟩

/-- The path to a node of such a hierarchy is a list of plain keys. -/
theorem PlainTree.of_get? {t s : Ptree} {p : List Key} (h : PlainTree t)
    (hs : t.get? p = some s) : (∀ k ∈ p, PlainKey k) ∧ PlainTree s := by
  induction p generalizing t with
  | nil =>
    cases hs
    exact ⟨by simp, h⟩
  | cons k p ih =>
    rw [LTree.get?_cons] at hs
    cases hl : List.lookup k t.children with
    | none =>
      rw [hl] at hs
      cases hs
    | some c =>
      rw [hl] at hs
      obtain ⟨hk, hc⟩ := h.of_lookup hl
      obtain ⟨hp, hs'⟩ := ih hc hs
      refine ⟨?_, hs'⟩
      intro j hj
      rcases List.mem_cons.mp hj with rfl | hj
      · exact hk
      · exact hp j hj

theorem dotted_concat {ks : List Key} (h : ks ≠ []) (k : Key) :
    dotted (ks ++ [k]) = dotted ks ++ '.' :: k :=
  intercalate_concat h '.' k

theorem dotted_cons {ks : List Key} (h : ks ≠ []) (k : Key) :
    dotted (k :: ks) = k ++ '.' :: dotted ks := by
  obtain ⟨j, js, rfl⟩ := List.exists_cons_of_ne_nil h
  simp [dotted]

/-- The last dot stands in front of the last key. -/
theorem findLastOf_dotted (q : List Key) {k : Key} (hk : PlainKey k) :
    findLastOf '.' (dotted (q ++ [k])) = if q = [] then none else some (dotted q).length := by
  split
  · subst_vars
    have hdotted : dotted ([] ++ [k]) = k := by simp
    rw [hdotted]
    exact findLastOf_eq_none hk.2
  · exact findLastOf_intercalate_concat ‹_› hk.2

theorem endsInKey_dotted (q : List Key) {k : Key} (hk : PlainKey k) :
    endsInKey (dotted (q ++ [k])) k = true := by
  unfold endsInKey
  rw [findLastOf_dotted q hk]
  by_cases hq : q = []
  · subst hq
    simp
  · rw [if_neg hq, dotted_concat hq]
    have hdrop : (dotted q ++ '.' :: k).drop ((dotted q).length + 1) = k := by simp
    simp [hdrop]

theorem endsInKey_nil {k : Key} (hk : PlainKey k) : endsInKey [] k = false := by
  simp [endsInKey, findLastOf, hk.1]

mutual
/-- `getKeyPath` is the search for the first node in pre-order. -/
theorem getKeyPath_eq {k : Key} (hk : PlainKey k) : ∀ t : Ptree,
    getKeyPath k t = dotted ((t.firstPath k).getD [])
  | .node _ cs => by
      simp only [getKeyPath, LTree.firstPath]
      exact getKeyPathIn_eq hk cs
theorem getKeyPathIn_eq {k : Key} (hk : PlainKey k) : ∀ cs : List (Key × Ptree),
    getKeyPathIn k cs = dotted ((LTree.firstPathIn k cs).getD [])
  | [] => rfl
  | (j, t) :: cs => by
      have hrec : getKeyPath k t = dotted ((t.firstPath k).getD []) := getKeyPath_eq hk t
      have hrest := getKeyPathIn_eq hk cs
      unfold getKeyPathIn LTree.firstPathIn
      by_cases hj : (j == k) = true
      · simp [hj]
      · rw [if_neg hj, if_neg hj, hrec]
        cases hfirst : t.firstPath k with
        | none =>
          simp only [Option.getD_none, dotted_nil, endsInKey_nil hk]
          exact hrest
        | some p =>
          obtain ⟨q, rfl⟩ := LTree.firstPath_eq_concat hfirst
          simp only [Option.getD_some]
          rw [if_pos (endsInKey_dotted q hk), dotted_cons (by simp)]
end

/-- Taking the last key off a dotted path. -/
theorem getParentKeyPath_dotted {q : List Key} {k : Key} (hk : PlainKey k) :
    getParentKeyPath (dotted (q ++ [k])) = dotted q := by
  unfold getParentKeyPath
  rw [findLastOf_dotted q hk]
  by_cases hq : q = []
  · subst hq
    simp
  · rw [if_neg hq, dotted_concat hq]
    simp

end Azulejo
