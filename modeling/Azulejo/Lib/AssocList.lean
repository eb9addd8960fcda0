import Mathlib.Data.List.Nodup
import Mathlib.Order.Lattice
import Mathlib.Tactic.Tauto

/-!
# Association lists

Two uses of a list of key/value pairs. `setIn` keeps the order in which keys first
appeared: an existing key gets its new value in place, a new key goes to the end. An
`insertSorted` list is kept in strictly increasing key order, which is how an ordered map
is iterated.
-/

namespace AssocList

variable {κ ν : Type}

/-- The keys, in list order. -/
def keys (l : List (κ × ν)) : List κ := l.map Prod.fst

@[simp] theorem keys_nil : keys ([] : List (κ × ν)) = [] := rfl

@[simp] theorem keys_cons (p : κ × ν) (l : List (κ × ν)) : keys (p :: l) = p.1 :: keys l := rfl

@[simp] theorem keys_append (l m : List (κ × ν)) : keys (l ++ m) = keys l ++ keys m :=
  List.map_append

theorem mem_keys_of_mem {p : κ × ν} {l : List (κ × ν)} (h : p ∈ l) : p.1 ∈ keys l :=
  List.mem_map_of_mem h

/-- A weaker condition that one more element meets is met more often. -/
theorem countP_lt_countP {α : Type} {p q : α → Bool} {l : List α} (h : ∀ x ∈ l, p x → q x) {x : α}
    (hx : x ∈ l) (hq : q x = true) (hp : p x = false) : l.countP p < l.countP q := by
  obtain ⟨s, t, rfl⟩ := List.append_of_mem hx
  have hs : s.countP p ≤ s.countP q :=
    List.countP_mono_left fun y hy => h y (List.mem_append_left _ hy)
  have ht : t.countP p ≤ t.countP q :=
    List.countP_mono_left fun y hy => h y (List.mem_append_right _ (List.mem_cons_of_mem _ hy))
  rw [List.countP_append, List.countP_append, List.countP_cons_of_pos hq,
    List.countP_cons_of_neg (by rw [hp]; exact Bool.false_ne_true)]
  omega

/-! ## Lookup -/

section Lookup

variable [BEq κ] [LawfulBEq κ]

theorem lookup_cons_self (k : κ) (v : ν) (l : List (κ × ν)) :
    List.lookup k ((k, v) :: l) = some v :=
  List.lookup_cons_self

theorem lookup_cons_ne {k k' : κ} (h : k' ≠ k) (v : ν) (l : List (κ × ν)) :
    List.lookup k ((k', v) :: l) = List.lookup k l := by
  have hb : (k == k') = false := beq_false_of_ne (Ne.symm h)
  rw [List.lookup_cons, hb]

theorem lookup_none {k : κ} {l : List (κ × ν)} : List.lookup k l = none ↔ k ∉ keys l := by
  induction l with
  | nil => simp
  | cons p l ih =>
    obtain ⟨k', v⟩ := p
    by_cases h : k' = k
    · subst h
      simp
    · rw [lookup_cons_ne h, ih]
      simp [Ne.symm h]

theorem lookup_mem {k : κ} {v : ν} {l : List (κ × ν)} (h : List.lookup k l = some v) :
    (k, v) ∈ l := by
  induction l with
  | nil => cases h
  | cons p l ih =>
    obtain ⟨k', v'⟩ := p
    by_cases hk : k' = k
    · subst hk
      rw [lookup_cons_self] at h
      cases h
      exact List.mem_cons_self
    · rw [lookup_cons_ne hk] at h
      exact List.mem_cons_of_mem _ (ih h)

theorem lookup_some_mem_keys {k : κ} {v : ν} {l : List (κ × ν)} (h : List.lookup k l = some v) :
    k ∈ keys l :=
  mem_keys_of_mem (lookup_mem h)

theorem lookup_append_of_not_mem {k : κ} {l : List (κ × ν)} (h : k ∉ keys l) (m : List (κ × ν)) :
    List.lookup k (l ++ m) = List.lookup k m := by
  induction l with
  | nil => rfl
  | cons p l ih =>
    obtain ⟨k', v⟩ := p
    simp only [keys_cons, List.mem_cons, not_or] at h
    rw [List.cons_append, lookup_cons_ne (Ne.symm h.1), ih h.2]

theorem lookup_of_nodup {k : κ} {v : ν} {l : List (κ × ν)} (hn : (keys l).Nodup)
    (h : (k, v) ∈ l) : List.lookup k l = some v := by
  induction l with
  | nil => cases h
  | cons p l ih =>
    obtain ⟨k', v'⟩ := p
    rw [keys_cons, List.nodup_cons] at hn
    rcases List.mem_cons.mp h with h | h
    · cases h
      exact lookup_cons_self _ _ _
    · have hk : k ∈ keys l := mem_keys_of_mem h
      have hne : k' ≠ k := by
        rintro rfl
        exact hn.1 hk
      rw [lookup_cons_ne hne, ih hn.2 h]

/-- Looking up among the entries that have a value. -/
theorem lookup_filterMap {l : List (κ × Option ν)} (hn : (keys l).Nodup) (k : κ) :
    List.lookup k (l.filterMap fun p => p.2.map fun v => (p.1, v)) = (List.lookup k l).join := by
  induction l with
  | nil => rfl
  | cons p l ih =>
    obtain ⟨j, value⟩ := p
    rw [keys_cons, List.nodup_cons] at hn
    cases value with
    | none =>
      rw [List.filterMap_cons_none rfl, ih hn.2]
      by_cases hj : j = k
      · subst hj
        rw [lookup_cons_self, lookup_none.mpr hn.1]
        rfl
      · rw [lookup_cons_ne hj]
    | some v =>
      simp only [List.filterMap_cons, Option.map_some]
      by_cases hj : j = k
      · subst hj
        rw [lookup_cons_self, lookup_cons_self]
        rfl
      · rw [lookup_cons_ne hj, lookup_cons_ne hj, ih hn.2]

theorem lookup_filter_self [DecidableEq κ] (k : κ) (l : List (κ × ν)) :
    List.lookup k (l.filter fun p => p.1 ≠ k) = none := by
  rw [lookup_none]
  intro hk
  obtain ⟨p, hp, rfl⟩ := List.mem_map.mp hk
  exact of_decide_eq_true (List.mem_filter.mp hp).2 rfl

theorem lookup_filter_ne [DecidableEq κ] {j k : κ} (h : j ≠ k) (l : List (κ × ν)) :
    List.lookup j (l.filter fun p => p.1 ≠ k) = List.lookup j l := by
  induction l with
  | nil => rfl
  | cons p l ih =>
    obtain ⟨k', v⟩ := p
    by_cases hk : k' = k
    · rw [List.filter_cons_of_neg (by simp only [hk, ne_eq, not_true, decide_false,
        Bool.false_eq_true, not_false_eq_true]), ih, lookup_cons_ne]
      exact fun hj => h (hj.symm.trans hk)
    · rw [List.filter_cons_of_pos (by simp only [ne_eq, hk, not_false_eq_true, decide_true])]
      by_cases hj : k' = j
      · rw [hj, lookup_cons_self, lookup_cons_self]
      · rw [lookup_cons_ne hj, lookup_cons_ne hj, ih]

/-- The order of the pairs does not matter when no key occurs twice. -/
theorem lookup_perm {l m : List (κ × ν)} (hperm : l.Perm m) (hn : (keys l).Nodup) (k : κ) :
    List.lookup k l = List.lookup k m := by
  cases h : List.lookup k l with
  | none =>
    rw [lookup_none] at h
    exact (lookup_none.mpr fun hk => h ((hperm.map Prod.fst).mem_iff.mpr hk)).symm
  | some v =>
    have hm : (keys m).Nodup := (hperm.map Prod.fst).nodup_iff.mp hn
    exact (lookup_of_nodup hm (hperm.subset (lookup_mem h))).symm

/-! ## Setting a key in place -/

/-- Give `k` the value `v`: in place of its first occurrence, or at the end. -/
def setIn (k : κ) (v : ν) : List (κ × ν) → List (κ × ν)
  | [] => [(k, v)]
  | (k', v') :: l => if k' == k then (k', v) :: l else (k', v') :: setIn k v l

@[simp] theorem setIn_cons_self (k : κ) (v v' : ν) (l : List (κ × ν)) :
    setIn k v ((k, v') :: l) = (k, v) :: l := by
  simp [setIn]

theorem setIn_cons_ne {k k' : κ} (h : k' ≠ k) (v v' : ν) (l : List (κ × ν)) :
    setIn k v ((k', v') :: l) = (k', v') :: setIn k v l := by
  simp [setIn, h]

theorem lookup_setIn_self (k : κ) (v : ν) (l : List (κ × ν)) :
    List.lookup k (setIn k v l) = some v := by
  induction l with
  | nil => exact lookup_cons_self k v []
  | cons p l ih =>
    obtain ⟨k', v'⟩ := p
    by_cases h : k' = k
    · subst h
      rw [setIn_cons_self, lookup_cons_self]
    · rw [setIn_cons_ne h, lookup_cons_ne h, ih]

theorem lookup_setIn_ne {j k : κ} (h : j ≠ k) (v : ν) (l : List (κ × ν)) :
    List.lookup j (setIn k v l) = List.lookup j l := by
  induction l with
  | nil => rw [setIn, lookup_cons_ne (Ne.symm h)]
  | cons p l ih =>
    obtain ⟨k', v'⟩ := p
    by_cases hk : k' = k
    · subst hk
      rw [setIn_cons_self, lookup_cons_ne (Ne.symm h), lookup_cons_ne (Ne.symm h)]
    · rw [setIn_cons_ne hk]
      by_cases hj : k' = j
      · subst hj
        rw [lookup_cons_self, lookup_cons_self]
      · rw [lookup_cons_ne hj, lookup_cons_ne hj, ih]

theorem mem_setIn {k : κ} {l : List (κ × ν)} (hn : (keys l).Nodup) {v : ν} {p : κ × ν} :
    p ∈ setIn k v l ↔ p = (k, v) ∨ p ∈ l ∧ p.1 ≠ k := by
  induction l with
  | nil => simp [setIn]
  | cons q l ih =>
    obtain ⟨k', v'⟩ := q
    rw [keys_cons, List.nodup_cons] at hn
    by_cases h : k' = k
    · subst h
      rw [setIn_cons_self, List.mem_cons, List.mem_cons]
      constructor
      · rintro (rfl | hp)
        · exact Or.inl rfl
        · refine Or.inr ⟨Or.inr hp, fun hk => hn.1 ?_⟩
          rw [← hk]
          exact mem_keys_of_mem (p := p) hp
      · rintro (rfl | ⟨rfl | hp, hne⟩)
        · exact Or.inl rfl
        · exact absurd rfl hne
        · exact Or.inr hp
    · rw [setIn_cons_ne h, List.mem_cons, List.mem_cons, ih hn.2]
      constructor
      · rintro (rfl | rfl | hp)
        · exact Or.inr ⟨Or.inl rfl, h⟩
        · exact Or.inl rfl
        · exact Or.inr ⟨Or.inr hp.1, hp.2⟩
      · rintro (rfl | ⟨rfl | hp, hne⟩)
        · exact Or.inr (Or.inl rfl)
        · exact Or.inl rfl
        · exact Or.inr (Or.inr ⟨hp, hne⟩)

theorem setIn_setIn (k : κ) (v w : ν) (l : List (κ × ν)) :
    setIn k w (setIn k v l) = setIn k w l := by
  induction l with
  | nil => simp [setIn]
  | cons p l ih =>
    obtain ⟨k', v'⟩ := p
    by_cases h : k' = k
    · subst h
      rw [setIn_cons_self, setIn_cons_self, setIn_cons_self]
    · rw [setIn_cons_ne h, setIn_cons_ne h, setIn_cons_ne h, ih]

/-- Setting a key to the value it has changes nothing. -/
theorem setIn_of_lookup {k : κ} {v : ν} {l : List (κ × ν)} (h : List.lookup k l = some v) :
    setIn k v l = l := by
  induction l with
  | nil => cases h
  | cons p l ih =>
    obtain ⟨j, w⟩ := p
    by_cases hj : j = k
    · subst hj
      rw [lookup_cons_self] at h
      cases h
      exact setIn_cons_self j _ _ l
    · rw [lookup_cons_ne hj] at h
      rw [setIn_cons_ne hj, ih h]

theorem setIn_of_not_mem {k : κ} {l : List (κ × ν)} (h : k ∉ keys l) (v : ν) :
    setIn k v l = l ++ [(k, v)] := by
  induction l with
  | nil => rfl
  | cons p l ih =>
    obtain ⟨k', v'⟩ := p
    simp only [keys_cons, List.mem_cons, not_or] at h
    rw [setIn_cons_ne (Ne.symm h.1), ih h.2, List.cons_append]

/-- Setting a key leaves the pairs of all other keys, in their order. -/
theorem filter_setIn (k : κ) (v : ν) (l : List (κ × ν)) :
    (setIn k v l).filter (fun p => p.1 != k) = l.filter (fun p => p.1 != k) := by
  induction l with
  | nil => simp [setIn]
  | cons p l ih =>
    obtain ⟨k', v'⟩ := p
    by_cases h : k' = k
    · subst h
      simp
    · rw [setIn_cons_ne h, List.filter_cons, List.filter_cons, ih]

/-- A key that occurred at most once occurs exactly once after it is set. -/
theorem count_setIn_self {k : κ} {l : List (κ × ν)} (h : (keys l).count k ≤ 1) (v : ν) :
    (keys (setIn k v l)).count k = 1 := by
  induction l with
  | nil => simp [setIn]
  | cons p l ih =>
    obtain ⟨k', v'⟩ := p
    by_cases hk : k' = k
    · subst hk
      rw [keys_cons, List.count_cons_self] at h
      rw [setIn_cons_self, keys_cons, List.count_cons_self]
      omega
    · rw [keys_cons, List.count_cons_of_ne hk] at h
      rw [setIn_cons_ne hk, keys_cons, List.count_cons_of_ne hk, ih h]

theorem count_setIn_ne {j k : κ} (h : j ≠ k) (v : ν) (l : List (κ × ν)) :
    (keys (setIn k v l)).count j = (keys l).count j := by
  induction l with
  | nil => simp [setIn, List.count_cons_of_ne (Ne.symm h)]
  | cons p l ih =>
    obtain ⟨k', v'⟩ := p
    by_cases hk : k' = k
    · subst hk
      rw [setIn_cons_self, keys_cons, keys_cons]
    · rw [setIn_cons_ne hk, keys_cons, keys_cons, List.count_cons, List.count_cons, ih]

theorem nodup_keys_setIn {k : κ} {l : List (κ × ν)} (h : (keys l).Nodup) (v : ν) :
    (keys (setIn k v l)).Nodup := by
  rw [List.nodup_iff_count_le_one] at h ⊢
  intro j
  by_cases hj : j = k
  · subst hj
    exact Nat.le_of_eq (count_setIn_self (h j) v)
  · rw [count_setIn_ne hj]
    exact h j

end Lookup

/-! ## Lists in strictly increasing key order -/

section Sorted

variable [LinearOrder κ]

/-- The keys strictly increase along the list. -/
def Sorted (l : List (κ × ν)) : Prop := (keys l).Pairwise (· < ·)

theorem Sorted.nodup {l : List (κ × ν)} (h : Sorted l) : (keys l).Nodup :=
  h.imp fun hlt => ne_of_lt hlt

/-- Only the keys count. -/
theorem Sorted.of_keys_eq {l l' : List (κ × ν)} (h : Sorted l) (hkeys : keys l' = keys l) :
    Sorted l' := by
  rw [Sorted, hkeys]
  exact h

theorem lt_of_sorted_append {p : κ × ν} {l more : List (κ × ν)} (h : Sorted (l ++ p :: more)) :
    ∀ j ∈ keys l, j < p.1 := by
  rw [Sorted, keys_append, List.pairwise_append] at h
  exact fun j hj => h.2.2 j hj p.1 List.mem_cons_self

theorem sorted_cons {p : κ × ν} {l : List (κ × ν)} :
    Sorted (p :: l) ↔ (∀ k ∈ keys l, p.1 < k) ∧ Sorted l :=
  List.pairwise_cons

/-- Assign `v` to `k`, keeping the list in key order. -/
def insertSorted (k : κ) (v : ν) : List (κ × ν) → List (κ × ν)
  | [] => [(k, v)]
  | (k', v') :: l =>
    if k < k' then (k, v) :: (k', v') :: l
    else if k' = k then (k', v) :: l
    else (k', v') :: insertSorted k v l

/-- A key above all others goes to the end. -/
theorem insertSorted_of_gt {k : κ} {l : List (κ × ν)} (h : ∀ j ∈ keys l, j < k) (v : ν) :
    insertSorted k v l = l ++ [(k, v)] := by
  induction l with
  | nil => rfl
  | cons p l ih =>
    obtain ⟨k', v'⟩ := p
    have hk : k' < k := h k' (by simp)
    have hl : ∀ j ∈ keys l, j < k := fun j hj => h j (by simp [hj])
    simp only [insertSorted, not_lt_of_gt hk, ne_of_lt hk, if_false, ih hl, List.cons_append]

theorem mem_keys_insertSorted {j k : κ} {v : ν} {l : List (κ × ν)} :
    j ∈ keys (insertSorted k v l) ↔ j = k ∨ j ∈ keys l := by
  induction l with
  | nil => simp [insertSorted]
  | cons p l ih =>
    obtain ⟨k', v'⟩ := p
    unfold insertSorted
    split
    · simp
    · split
      · rename_i h
        subst h
        simp
      · simp only [keys_cons, List.mem_cons, ih]
        tauto

theorem mem_of_mem_insertSorted {k : κ} {v : ν} {l : List (κ × ν)} {p : κ × ν}
    (h : p ∈ insertSorted k v l) : p = (k, v) ∨ p ∈ l := by
  induction l with
  | nil => exact Or.inl (List.mem_singleton.mp h)
  | cons q l ih =>
    obtain ⟨j, w⟩ := q
    rw [insertSorted] at h
    split at h
    · exact List.mem_cons.mp h
    · split at h
      · rename_i heq
        rcases List.mem_cons.mp h with rfl | h
        · exact Or.inl (by rw [heq])
        · exact Or.inr (List.mem_cons_of_mem _ h)
      · rcases List.mem_cons.mp h with rfl | h
        · exact Or.inr List.mem_cons_self
        · exact (ih h).imp_right (List.mem_cons_of_mem _)

theorem sorted_filter {l : List (κ × ν)} (h : Sorted l) (p : κ × ν → Bool) :
    Sorted (l.filter p) :=
  List.Pairwise.sublist (List.filter_sublist.map Prod.fst) h

theorem sorted_insertSorted {k : κ} {l : List (κ × ν)} (h : Sorted l) (v : ν) :
    Sorted (insertSorted k v l) := by
  induction l with
  | nil => simp [insertSorted, Sorted]
  | cons p l ih =>
    obtain ⟨k', v'⟩ := p
    obtain ⟨hlt, hl⟩ := sorted_cons.mp h
    unfold insertSorted
    split
    · rename_i hk
      refine sorted_cons.mpr ⟨?_, h⟩
      intro j hj
      rw [keys_cons, List.mem_cons] at hj
      rcases hj with rfl | hj
      · exact hk
      · exact lt_trans hk (hlt j hj)
    · split
      · exact sorted_cons.mpr ⟨hlt, hl⟩
      · rename_i h1 h2
        refine sorted_cons.mpr ⟨?_, ih hl⟩
        intro j hj
        rcases mem_keys_insertSorted.mp hj with rfl | hj
        · exact lt_of_le_of_ne (not_lt.mp h1) h2
        · exact hlt j hj

/-- A new key adds one pair to those that were there. -/
theorem insertSorted_perm {k : κ} {l : List (κ × ν)} (h : k ∉ keys l) (v : ν) :
    (insertSorted k v l).Perm ((k, v) :: l) := by
  induction l with
  | nil => exact List.Perm.refl _
  | cons p l ih =>
    obtain ⟨k', v'⟩ := p
    simp only [keys_cons, List.mem_cons, not_or] at h
    unfold insertSorted
    rw [if_neg (Ne.symm h.1)]
    split
    · exact List.Perm.refl _
    · exact ((ih h.2).cons _).trans (List.Perm.swap _ _ _)

section Lookup

variable [BEq κ] [LawfulBEq κ]

theorem lookup_insertSorted_self (k : κ) (v : ν) (l : List (κ × ν)) :
    List.lookup k (insertSorted k v l) = some v := by
  induction l with
  | nil => exact lookup_cons_self k v []
  | cons p l ih =>
    obtain ⟨k', v'⟩ := p
    unfold insertSorted
    split
    · exact lookup_cons_self k v _
    · split
      · rename_i h
        subst h
        exact lookup_cons_self k' v _
      · rename_i h
        rw [lookup_cons_ne h, ih]

theorem lookup_insertSorted_ne {j k : κ} (h : j ≠ k) (v : ν) (l : List (κ × ν)) :
    List.lookup j (insertSorted k v l) = List.lookup j l := by
  induction l with
  | nil => exact lookup_cons_ne (Ne.symm h) v []
  | cons p l ih =>
    obtain ⟨k', v'⟩ := p
    unfold insertSorted
    split
    · exact lookup_cons_ne (Ne.symm h) v _
    · split
      · rename_i hk
        subst hk
        rw [lookup_cons_ne (Ne.symm h), lookup_cons_ne (Ne.symm h)]
      · by_cases hj : k' = j
        · subst hj
          rw [lookup_cons_self, lookup_cons_self]
        · rw [lookup_cons_ne hj, lookup_cons_ne hj, ih]

/-- Changing the value of a key just inserted is inserting the new value. -/
theorem setIn_insertSorted {k : κ} {l : List (κ × ν)} (h : k ∉ keys l) (v w : ν) :
    setIn k w (insertSorted k v l) = insertSorted k w l := by
  induction l with
  | nil => simp [insertSorted]
  | cons p l ih =>
    obtain ⟨k', v'⟩ := p
    simp only [keys_cons, List.mem_cons, not_or] at h
    have hk : k' ≠ k := Ne.symm h.1
    unfold insertSorted
    split
    · rw [setIn_cons_self]
    · simp only [setIn_cons_ne hk, ih h.2]

end Lookup

/-- Assign `f k` to each `k` of a list, one after the other. -/
def insertEach (f : κ → ν) (ks : List κ) (l : List (κ × ν)) : List (κ × ν) :=
  ks.foldl (fun l k => insertSorted k (f k) l) l

theorem sorted_insertEach (f : κ → ν) (ks : List κ) {l : List (κ × ν)} (h : Sorted l) :
    Sorted (insertEach f ks l) := by
  induction ks generalizing l with
  | nil => exact h
  | cons k ks ih => exact ih (sorted_insertSorted h (f k))

theorem lookup_insertEach [BEq κ] [LawfulBEq κ] (f : κ → ν) (ks : List κ) (l : List (κ × ν))
    (j : κ) :
    List.lookup j (insertEach f ks l) = if j ∈ ks then some (f j) else List.lookup j l := by
  induction ks generalizing l with
  | nil => simp only [insertEach, List.foldl_nil, List.not_mem_nil, if_false]
  | cons k ks ih =>
    have hstep : insertEach f (k :: ks) l = insertEach f ks (insertSorted k (f k) l) := rfl
    rw [hstep, ih]
    by_cases hks : j ∈ ks
    · rw [if_pos hks, if_pos (List.mem_cons_of_mem k hks)]
    · rw [if_neg hks]
      by_cases hk : j = k
      · rw [hk, lookup_insertSorted_self, if_pos List.mem_cons_self]
      · rw [lookup_insertSorted_ne hk, if_neg]
        exact fun hmem => (List.mem_cons.mp hmem).elim hk hks

end Sorted

end AssocList
