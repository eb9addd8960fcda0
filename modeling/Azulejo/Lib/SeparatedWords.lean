import Mathlib.Data.List.Basic

/-!
# Words joined by a separator

`[sep].intercalate ws` writes the words `ws` one after the other with `sep` between them.
`findLastOf` is the position of the last separator, so `take` and `drop` around it split
off the last word; `findLastOf_intercalate_concat` says that it does when that word holds no
separator.
-/

namespace SeparatedWords

variable {α : Type}

theorem intercalate_concat {ws : List (List α)} (h : ws ≠ []) (sep : α) (w : List α) :
    [sep].intercalate (ws ++ [w]) = [sep].intercalate ws ++ sep :: w := by
  induction ws with
  | nil => exact absurd rfl h
  | cons v ws ih =>
    cases ws with
    | nil => simp
    | cons u ws =>
      have ih' := ih (List.cons_ne_nil u ws)
      rw [List.cons_append] at ih'
      rw [List.cons_append, List.cons_append, List.intercalate_cons_cons, ih',
        List.intercalate_cons_cons, List.append_assoc, List.append_assoc, List.append_assoc]

/-- Joining words that are not empty gives the empty list only when there is no word. -/
theorem intercalate_eq_nil {ws : List (List α)} (h : ∀ w ∈ ws, w ≠ []) (sep : α) :
    [sep].intercalate ws = [] ↔ ws = [] := by
  cases ws with
  | nil => simp
  | cons w ws =>
    have hw : w ≠ [] := h w (by simp)
    cases ws with
    | nil => simpa using hw
    | cons u ws => simp

/-- Words that hold no separator are determined by what they are joined to. -/
theorem intercalate_inj [DecidableEq α] {sep : α} {ws us : List (List α)}
    (hw : ∀ w ∈ ws, sep ∉ w) (hu : ∀ u ∈ us, sep ∉ u) (hw0 : ws ≠ []) (hu0 : us ≠ [])
    (h : [sep].intercalate ws = [sep].intercalate us) : ws = us := by
  rw [← List.splitOn_intercalate sep hw hw0, h, List.splitOn_intercalate sep hu hu0]

section LastSeparator

variable [DecidableEq α]

/-- The position of the last occurrence of `sep`. -/
def findLastOf (sep : α) : List α → Option Nat
  | [] => none
  | x :: xs =>
    match findLastOf sep xs with
    | some i => some (i + 1)
    | none => if x = sep then some 0 else none

theorem findLastOf_eq_none {sep : α} {xs : List α} (h : sep ∉ xs) : findLastOf sep xs = none := by
  induction xs with
  | nil => rfl
  | cons x xs ih =>
    simp only [List.mem_cons, not_or] at h
    simp [findLastOf, ih h.2, Ne.symm h.1]

theorem findLastOf_append_sep {sep : α} (xs : List α) {w : List α} (h : sep ∉ w) :
    findLastOf sep (xs ++ sep :: w) = some xs.length := by
  induction xs with
  | nil => simp [findLastOf, findLastOf_eq_none h]
  | cons x xs ih => simp [findLastOf, ih]

/-- The last separator of a joined list stands right before the last word. -/
theorem findLastOf_intercalate_concat {sep : α} {ws : List (List α)} (hws : ws ≠ []) {w : List α}
    (hw : sep ∉ w) :
    findLastOf sep ([sep].intercalate (ws ++ [w])) = some ([sep].intercalate ws).length := by
  rw [intercalate_concat hws]
  exact findLastOf_append_sep _ hw

end LastSeparator

end SeparatedWords
