import Mathlib.Algebra.GroupWithZero.Nat
import Mathlib.Data.List.Basic
import Mathlib.Order.WellFounded
import Mathlib.Tactic.ByContra

/-!
# Threads that take locks

Each thread has locks it holds and a list of operations that are left. A lock is held by one
thread at a time; a recursive one can be taken again by the thread that holds it. When every
thread that waits for another holds only locks of lower rank than the one it waits for, a thread
that has operations left can go on.
-/

namespace LockOrder

variable {L : Type}

inductive Op (L : Type) where
  | acquire (lock : L)
  | release (lock : L)
  deriving DecidableEq

/-- A thread: the locks it holds, once for each time it has taken them, and what is left to do. -/
structure Thread (L : Type) where
  held : List L
  ops : List (Op L)
  deriving DecidableEq

/-- Another thread than the `t`-th holds the lock. -/
def HeldByOther (threads : List (Thread L)) (t : Nat) (lock : L) : Prop :=
  ∃ other ∈ threads.eraseIdx t, lock ∈ other.held

section DecidableEq

variable [DecidableEq L]

instance (threads : List (Thread L)) (t : Nat) (lock : L) :
    Decidable (HeldByOther threads t lock) :=
  inferInstanceAs (Decidable (∃ other ∈ threads.eraseIdx t, lock ∈ other.held))

/-- The `t`-th thread does its next operation, unless it has to wait. -/
def go (recursive : L → Bool) (threads : List (Thread L)) (t : Nat) :
    Option (List (Thread L)) :=
  match threads[t]? with
  | some ⟨held, .acquire lock :: ops⟩ =>
    if HeldByOther threads t lock ∨ lock ∈ held ∧ recursive lock = false then none
    else some (threads.set t ⟨lock :: held, ops⟩)
  | some ⟨held, .release lock :: ops⟩ => some (threads.set t ⟨held.erase lock, ops⟩)
  | _ => none

end DecidableEq

theorem heldByOther_iff {threads : List (Thread L)} {t : Nat} {lock : L} :
    HeldByOther threads t lock ↔
      ∃ u other, u ≠ t ∧ threads[u]? = some other ∧ lock ∈ other.held := by
  unfold HeldByOther
  constructor
  · rintro ⟨other, hother, hlock⟩
    obtain ⟨u, hu, hother⟩ := List.mem_eraseIdx_iff_getElem?.mp hother
    exact ⟨u, other, hu, hother, hlock⟩
  · rintro ⟨u, other, hu, hother, hlock⟩
    exact ⟨other, List.mem_eraseIdx_iff_getElem?.mpr ⟨u, hu, hother⟩, hlock⟩

/-! ## One holder -/

/-- No two threads hold the same lock. -/
def Exclusive (threads : List (Thread L)) : Prop :=
  ∀ (t u : Nat) (thread other : Thread L) (lock : L), threads[t]? = some thread →
    threads[u]? = some other → lock ∈ thread.held → lock ∈ other.held → t = u

/-- What is not set stays as it is. -/
theorem getElem?_set_other {α : Type} {l : List α} {t u : Nat} {a b : α}
    (h : (l.set t a)[u]? = some b) : u = t ∧ b = a ∨ u ≠ t ∧ l[u]? = some b := by
  rw [List.getElem?_set] at h
  split at h
  · rename_i htu
    split at h
    · exact Or.inl ⟨htu.symm, (Option.some.inj h).symm⟩
    · cases h
  · rename_i htu
    exact Or.inr ⟨fun hut => htu hut.symm, h⟩

theorem exclusive_set {threads : List (Thread L)} (h : Exclusive threads) {t : Nat}
    {thread : Thread L} (hfree : ∀ lock ∈ thread.held, ¬ HeldByOther threads t lock) :
    Exclusive (threads.set t thread) := by
  intro u v other other' lock hu hv hlock hlock'
  rcases getElem?_set_other hu with ⟨hut, hsame⟩ | ⟨hut, hu⟩
  · rcases getElem?_set_other hv with ⟨hvt, -⟩ | ⟨hvt, hv⟩
    · rw [hut, hvt]
    · rw [hsame] at hlock
      exact absurd (heldByOther_iff.mpr ⟨v, other', hvt, hv, hlock'⟩) (hfree lock hlock)
  · rcases getElem?_set_other hv with ⟨-, hsame⟩ | ⟨-, hv⟩
    · rw [hsame] at hlock'
      exact absurd (heldByOther_iff.mpr ⟨u, other, hut, hu, hlock⟩) (hfree lock hlock')
    · exact h u v other other' lock hu hv hlock hlock'

theorem Exclusive.not_heldByOther {threads : List (Thread L)} (h : Exclusive threads) {t : Nat}
    {thread : Thread L} (ht : threads[t]? = some thread) {lock : L} (hlock : lock ∈ thread.held) :
    ¬ HeldByOther threads t lock := by
  intro hother
  obtain ⟨u, other, hut, hu, hheld⟩ := heldByOther_iff.mp hother
  exact hut (h u t other thread lock hu ht hheld hlock)

/-! ## What a thread that goes on does -/

variable [DecidableEq L]

/-- The thread takes a lock no other thread holds, or releases one. -/
theorem go_cases {recursive : L → Bool} {threads threads' : List (Thread L)} {t : Nat}
    (h : go recursive threads t = some threads') :
    (∃ held lock ops, threads[t]? = some ⟨held, .acquire lock :: ops⟩ ∧
      ¬ HeldByOther threads t lock ∧ (lock ∈ held → recursive lock = true) ∧
      threads' = threads.set t ⟨lock :: held, ops⟩) ∨
    ∃ held lock ops, threads[t]? = some ⟨held, .release lock :: ops⟩ ∧
      threads' = threads.set t ⟨held.erase lock, ops⟩ := by
  unfold go at h
  cases ht : threads[t]? with
  | none => simp only [ht, reduceCtorEq] at h
  | some thread =>
    obtain ⟨held, ops⟩ := thread
    cases ops with
    | nil => simp only [ht, reduceCtorEq] at h
    | cons op ops =>
      cases op with
      | acquire lock =>
        simp only [ht, Option.ite_none_left_eq_some, Option.some.injEq, not_or, not_and,
          Bool.not_eq_false] at h
        exact Or.inl ⟨held, lock, ops, rfl, h.1.1, h.1.2, h.2.symm⟩
      | release lock =>
        simp only [ht, Option.some.injEq] at h
        exact Or.inr ⟨held, lock, ops, rfl, h.symm⟩

theorem exclusive_go {recursive : L → Bool} {threads threads' : List (Thread L)} {t : Nat}
    (h : Exclusive threads) (hgo : go recursive threads t = some threads') :
    Exclusive threads' := by
  rcases go_cases hgo with ⟨held, lock, ops, ht, hfree, -, rfl⟩ | ⟨held, lock, ops, ht, rfl⟩
  · apply exclusive_set h
    intro other hother
    rcases List.mem_cons.mp hother with rfl | hother
    · exact hfree
    · exact h.not_heldByOther ht hother
  · apply exclusive_set h
    intro other hother
    exact h.not_heldByOther ht (List.mem_of_mem_erase hother)

/-! ## Ranks -/

/-- A thread that waits for another holds locks of lower rank than the one it waits for, a lock
that it holds itself it takes only if that is recursive, and a thread that has nothing left to
do holds nothing. -/
structure InOrder {γ : Type} [LT γ] (recursive : L → Bool) (rank : L → γ)
    (threads : List (Thread L)) : Prop where
  waits : ∀ (t : Nat) (thread : Thread L) (lock : L) (ops : List (Op L)),
    threads[t]? = some thread → thread.ops = .acquire lock :: ops →
    HeldByOther threads t lock → ∀ other ∈ thread.held, rank other < rank lock
  again : ∀ thread ∈ threads, ∀ (lock : L) (ops : List (Op L)),
    thread.ops = .acquire lock :: ops → lock ∈ thread.held → recursive lock = true
  done : ∀ thread ∈ threads, thread.ops = [] → thread.held = []

/-- A thread goes on with a lock that no other thread holds. -/
theorem go_acquire {recursive : L → Bool} {threads : List (Thread L)} {t : Nat} {held : List L}
    {lock : L} {ops : List (Op L)} (ht : threads[t]? = some ⟨held, .acquire lock :: ops⟩)
    (hfree : ¬ HeldByOther threads t lock) (hagain : lock ∈ held → recursive lock = true) :
    go recursive threads t = some (threads.set t ⟨lock :: held, ops⟩) := by
  have hgoes : ¬ (HeldByOther threads t lock ∨ lock ∈ held ∧ recursive lock = false) := by
    rintro (hother | ⟨hmem, hnot⟩)
    · exact hfree hother
    · rw [hagain hmem] at hnot
      cases hnot
  simp only [go, ht, if_neg hgoes]

theorem go_release {recursive : L → Bool} {threads : List (Thread L)} {t : Nat} {held : List L}
    {lock : L} {ops : List (Op L)} (ht : threads[t]? = some ⟨held, .release lock :: ops⟩) :
    go recursive threads t = some (threads.set t ⟨held.erase lock, ops⟩) := by
  simp only [go, ht]

/-- A thread waits for the lock that another one holds. -/
theorem go_eq_none {recursive : L → Bool} {threads : List (Thread L)} {t : Nat} {held : List L}
    {lock : L} {ops : List (Op L)} (ht : threads[t]? = some ⟨held, .acquire lock :: ops⟩)
    (hother : HeldByOther threads t lock) : go recursive threads t = none := by
  simp only [go, ht, if_pos (Or.inl hother)]

/-- When a thread has operations left, a thread can go on. -/
theorem exists_go {γ : Type} [Preorder γ] [WellFoundedGT γ] {recursive : L → Bool} {rank : L → γ}
    {threads : List (Thread L)} (h : InOrder recursive rank threads) {thread : Thread L}
    (hthread : thread ∈ threads) (hleft : thread.ops ≠ []) :
    ∃ t, (go recursive threads t).isSome = true := by
  -- along a chain of threads that wait for each other the ranks of the locks go up
  have hnext : ∀ (t : Nat) (thread : Thread L), threads[t]? = some thread → thread.ops ≠ [] →
      (∃ u, (go recursive threads u).isSome = true) ∨
        ∃ (u : Nat) (holder : Thread L) (lock : L), threads[u]? = some holder ∧
          lock ∈ holder.held ∧
          ∀ other ∈ thread.held, rank other < rank lock := by
    intro t thread ht hleft
    obtain ⟨held, ops⟩ := thread
    cases ops with
    | nil => exact absurd rfl hleft
    | cons op ops =>
      cases op with
      | release lock => exact Or.inl ⟨t, by rw [go_release ht, Option.isSome_some]⟩
      | acquire lock =>
        by_cases hwaits : HeldByOther threads t lock
        · obtain ⟨u, holder, -, hu, hheld⟩ := heldByOther_iff.mp hwaits
          exact Or.inr ⟨u, holder, lock, hu, hheld, h.waits t _ lock ops ht rfl hwaits⟩
        · have hagain := h.again _ (List.mem_of_getElem? ht) lock ops rfl
          exact Or.inl ⟨t, by rw [go_acquire ht hwaits hagain, Option.isSome_some]⟩
  have hchain : ∀ (r : γ) (t : Nat) (holder : Thread L) (lock : L), threads[t]? = some holder →
      lock ∈ holder.held → rank lock = r → ∃ u, (go recursive threads u).isSome = true := by
    intro r
    induction r using WellFoundedGT.induction with
    | _ r ih =>
      intro t holder lock ht hlock hrank
      have hbusy : holder.ops ≠ [] := by
        intro hnil
        rw [h.done holder (List.mem_of_getElem? ht) hnil] at hlock
        cases hlock
      rcases hnext t holder ht hbusy with hgoes | ⟨u, next, other, hu, hother, hhigher⟩
      · exact hgoes
      · have hless := hhigher lock hlock
        rw [hrank] at hless
        exact ih (rank other) hless u next other hu hother rfl
  obtain ⟨t, ht⟩ := List.mem_iff_getElem?.mp hthread
  rcases hnext t thread ht hleft with hgoes | ⟨u, holder, lock, hu, hlock, -⟩
  · exact hgoes
  · exact hchain (rank lock) u holder lock hu hlock rfl

/-! ## The operations that are left -/

/-- The number of operations that are left. -/
def work (threads : List (Thread L)) : Nat := (threads.map fun thread => thread.ops.length).sum

omit [DecidableEq L] in
theorem work_set {threads : List (Thread L)} {t : Nat} {thread : Thread L}
    (ht : threads[t]? = some thread) (thread' : Thread L) :
    work (threads.set t thread') + thread.ops.length = work threads + thread'.ops.length := by
  unfold work
  induction threads generalizing t with
  | nil => cases ht
  | cons first threads ih =>
    cases t with
    | zero =>
      obtain rfl := Option.some.inj ht
      simp only [List.set_cons_zero, List.map_cons, List.sum_cons]
      omega
    | succ t =>
      have hrest := ih (t := t) (by simpa only [List.getElem?_cons_succ] using ht)
      simp only [List.set_cons_succ, List.map_cons, List.sum_cons]
      omega

/-- A thread that goes on has one operation less to do. -/
theorem work_go {recursive : L → Bool} {threads threads' : List (Thread L)} {t : Nat}
    (h : go recursive threads t = some threads') : work threads' + 1 = work threads := by
  rcases go_cases h with ⟨held, lock, ops, ht, -, -, rfl⟩ | ⟨held, lock, ops, ht, rfl⟩
  · have hwork := work_set ht ⟨lock :: held, ops⟩
    simp only [List.length_cons] at hwork
    omega
  · have hwork := work_set ht ⟨held.erase lock, ops⟩
    simp only [List.length_cons] at hwork
    omega

end LockOrder
