import Mathlib.Algebra.GroupWithZero.Nat
import Mathlib.Data.List.Perm.Basic
import Mathlib.Tactic.ByContra

/-!
# Parties of which one moves

The places of the parties of a system are a list, and a step of one party is a `List.set`. The
lemmas say what such a step does to the number of parties at places of a kind, to what the
parties hold, and to what holds of all of them.
-/

namespace Parties

variable {P : Type}

/-- One party leaves a place and comes to another. -/
theorem countP_set_add {l : List P} {i : Nat} {a : P} (h : l[i]? = some a) (b : P) (p : P → Bool) :
    (l.set i b).countP p + (p a).toNat = l.countP p + (p b).toNat := by
  induction l generalizing i with
  | nil => cases h
  | cons c l ih =>
    cases i with
    | zero =>
      cases h
      simp only [List.set_cons_zero, List.countP_cons]
      cases p a <;> cases p b <;> simp
    | succ i =>
      have hrest := ih (i := i) (by simpa using h)
      simp only [List.set_cons_succ, List.countP_cons]
      omega

/-- A party goes to a place of the same kind. -/
theorem countP_set_eq {l : List P} {i : Nat} {a b : P} (h : l[i]? = some a) {p : P → Bool}
    (hp : p a = p b) : (l.set i b).countP p = l.countP p := by
  have hcount := countP_set_add h b p
  rw [hp] at hcount
  exact Nat.add_right_cancel hcount

/-- What the places weigh changes in the same way. -/
theorem sum_map_set_add {l : List P} {i : Nat} {a : P} (h : l[i]? = some a) (b : P)
    (f : P → Nat) : ((l.set i b).map f).sum + f a = (l.map f).sum + f b := by
  induction l generalizing i with
  | nil => cases h
  | cons c l ih =>
    cases i with
    | zero =>
      cases h
      simp only [List.set_cons_zero, List.map_cons, List.sum_cons]
      omega
    | succ i =>
      have hrest := ih (i := i) (by simpa using h)
      simp only [List.set_cons_succ, List.map_cons, List.sum_cons]
      omega

/-- What holds of all parties before a step and of the new place holds of all after it. -/
theorem forall_set {Q : P → Prop} {l : List P} {i : Nat} {b : P} (hl : ∀ c ∈ l, Q c) (hb : Q b) :
    ∀ c ∈ l.set i b, Q c := by
  intro c hc
  rcases List.mem_or_eq_of_mem_set hc with hc | rfl
  · exact hl c hc
  · exact hb

/-- A place that is not the new one was taken before. -/
theorem mem_of_mem_set {l : List P} {i : Nat} {b c : P} (h : c ∈ l.set i b) (hne : c ≠ b) :
    c ∈ l :=
  (List.mem_or_eq_of_mem_set h).resolve_right hne

/-- A party that does not move stays where it is. -/
theorem mem_set_of_mem {l : List P} {i : Nat} {a c : P} (h : l[i]? = some a) (hc : c ∈ l)
    (hne : c ≠ a) (b : P) : c ∈ l.set i b := by
  obtain ⟨j, hj⟩ := List.getElem?_of_mem hc
  have hij : i ≠ j := by
    rintro rfl
    rw [h] at hj
    exact hne (Option.some.inj hj).symm
  exact List.mem_of_getElem? (by rw [List.getElem?_set_ne hij, hj])

theorem mem_set_self {l : List P} {i : Nat} {a : P} (h : l[i]? = some a) (b : P) :
    b ∈ l.set i b := by
  obtain ⟨hi, -⟩ := List.getElem?_eq_some_iff.mp h
  exact List.mem_of_getElem? (List.getElem?_set_self hi)

/-- What the parties hold changes by what the one that moves holds. -/
theorem filterMap_set_perm {H : Type} {l : List P} {i : Nat} {a : P} (h : l[i]? = some a) (b : P)
    (f : P → Option H) :
    ((l.set i b).filterMap f ++ (f a).toList).Perm (l.filterMap f ++ (f b).toList) := by
  induction l generalizing i with
  | nil => cases h
  | cons c l ih =>
    cases i with
    | zero =>
      cases h
      simp only [List.set_cons_zero, List.filterMap_cons]
      cases f a with
      | none =>
        cases f b with
        | none => exact List.Perm.refl _
        | some y =>
          simp only [Option.toList_none, Option.toList_some, List.append_nil]
          exact (List.perm_append_singleton y _).symm
      | some x =>
        cases f b with
        | none =>
          simp only [Option.toList_none, Option.toList_some, List.append_nil]
          exact List.perm_append_singleton x _
        | some y =>
          simp only [List.cons_append, Option.toList_some]
          exact ((List.perm_append_singleton x _).cons y).trans
            ((List.Perm.swap x y _).trans ((List.perm_append_singleton y _).symm.cons x))
    | succ i =>
      have hrest := ih (i := i) (by simpa using h)
      simp only [List.set_cons_succ, List.filterMap_cons]
      cases f c with
      | none => exact hrest
      | some x => exact hrest.cons x

end Parties
