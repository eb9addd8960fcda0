import Mathlib.Logic.Function.Basic
import Mathlib.Logic.ExistsUnique

/-!
# Names with one owner

Parties own names, at most one name each. `Exclusive` says that the names present in a system
are those that have an owner, and that nobody shares a name. A party that owns nothing may take a
name that is absent, and an owner may give its name up together with the name itself.
-/

namespace Ownership

variable {I N : Type}

/-- The present names are the owned ones, and each has one owner. -/
structure Exclusive (owned : I → Option N) (present : N → Prop) : Prop where
  present_iff : ∀ n, present n ↔ ∃ i, owned i = some n
  unique : ∀ i j n, owned i = some n → owned j = some n → i = j

variable {owned : I → Option N} {present : N → Prop}

theorem exclusive_none (h : ∀ n, ¬ present n) :
    Exclusive (fun _ : I => (none : Option N)) present where
  present_iff n := ⟨fun hn => absurd hn (h n), fun ⟨_, hi⟩ => nomatch hi⟩
  unique _ _ _ hi := nomatch hi

theorem Exclusive.existsUnique (h : Exclusive owned present) (n : N) :
    present n ↔ ∃! i, owned i = some n := by
  rw [h.present_iff]
  constructor
  · rintro ⟨i, hi⟩
    exact ⟨i, hi, fun j hj => h.unique j i n hj hi⟩
  · rintro ⟨i, hi, -⟩
    exact ⟨i, hi⟩

variable [DecidableEq I]

/-- A party without a name that takes none. -/
theorem Exclusive.idle (h : Exclusive owned present) {i : I} (hi : owned i = none) :
    Exclusive (Function.update owned i none) present := by
  rw [← hi, Function.update_eq_self]
  exact h

/-- A party without a name takes an absent one. -/
theorem Exclusive.acquire (h : Exclusive owned present) {i : I} {n : N} (hi : owned i = none)
    (hn : ¬ present n) :
    Exclusive (Function.update owned i (some n)) (fun m => m = n ∨ present m) where
  present_iff m := by
    constructor
    · rintro (rfl | hm)
      · exact ⟨i, Function.update_self i _ _⟩
      · obtain ⟨j, hj⟩ := (h.present_iff m).mp hm
        have hne : j ≠ i := by
          rintro rfl
          rw [hi] at hj
          cases hj
        exact ⟨j, by rw [Function.update_of_ne hne, hj]⟩
    · rintro ⟨j, hj⟩
      by_cases hji : j = i
      · rw [hji, Function.update_self] at hj
        exact Or.inl (Option.some.inj hj).symm
      · rw [Function.update_of_ne hji] at hj
        exact Or.inr ((h.present_iff m).mpr ⟨j, hj⟩)
  unique j k m hj hk := by
    have howner : ∀ l, Function.update owned i (some n) l = some m →
        (l = i ∧ m = n) ∨ (l ≠ i ∧ owned l = some m) := by
      intro l hl
      by_cases hli : l = i
      · rw [hli, Function.update_self] at hl
        exact Or.inl ⟨hli, (Option.some.inj hl).symm⟩
      · rw [Function.update_of_ne hli] at hl
        exact Or.inr ⟨hli, hl⟩
    rcases howner j hj with ⟨rfl, rfl⟩ | ⟨-, hjm⟩
    · rcases howner k hk with ⟨rfl, -⟩ | ⟨-, hkm⟩
      · rfl
      · exact absurd ((h.present_iff _).mpr ⟨k, hkm⟩) hn
    · rcases howner k hk with ⟨rfl, rfl⟩ | ⟨-, hkm⟩
      · exact absurd ((h.present_iff _).mpr ⟨j, hjm⟩) hn
      · exact h.unique j k m hjm hkm

/-- An owner gives its name up, and the name goes with it. -/
theorem Exclusive.release (h : Exclusive owned present) {i : I} {n : N} (hi : owned i = some n) :
    Exclusive (Function.update owned i none) (fun m => m ≠ n ∧ present m) where
  present_iff m := by
    constructor
    · rintro ⟨hmn, hm⟩
      obtain ⟨j, hj⟩ := (h.present_iff m).mp hm
      have hne : j ≠ i := by
        rintro rfl
        rw [hi] at hj
        exact hmn (Option.some.inj hj).symm
      exact ⟨j, by rw [Function.update_of_ne hne, hj]⟩
    · rintro ⟨j, hj⟩
      by_cases hji : j = i
      · rw [hji, Function.update_self] at hj
        cases hj
      · rw [Function.update_of_ne hji] at hj
        refine ⟨?_, (h.present_iff m).mpr ⟨j, hj⟩⟩
        rintro rfl
        exact hji (h.unique j i m hj hi)
  unique j k m hj hk := by
    have hold : ∀ l, Function.update owned i none l = some m → owned l = some m := by
      intro l hl
      by_cases hli : l = i
      · rw [hli, Function.update_self] at hl
        cases hl
      · rwa [Function.update_of_ne hli] at hl
    exact h.unique j k m (hold j hj) (hold k hk)

end Ownership
