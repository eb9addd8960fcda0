import Mathlib.Logic.Basic

/-!
# Runs of a system that is called from outside

A system takes one step for each call it gets. `Meets` says of a run that every step of it
starts in a state in which a condition on the state and the call holds; what each such step
preserves, the run preserves.
-/

namespace Runs

variable {S C : Type} (step : S → C → S)

/-- The state after a list of calls. -/
def run (s : S) : List C → S
  | [] => s
  | c :: cs => run (step s c) cs

/-- Each call is made in a state in which the condition `ok` holds. -/
def Meets (ok : S → C → Prop) (s : S) : List C → Prop
  | [] => True
  | c :: cs => ok s c ∧ Meets ok (step s c) cs

variable {step}

theorem run_append (s : S) (cs ds : List C) :
    run step s (cs ++ ds) = run step (run step s cs) ds := by
  induction cs generalizing s with
  | nil => rfl
  | cons c cs ih => exact ih (step s c)

theorem meets_append {ok : S → C → Prop} {s : S} {cs ds : List C} :
    Meets step ok s (cs ++ ds) ↔ Meets step ok s cs ∧ Meets step ok (run step s cs) ds := by
  induction cs generalizing s with
  | nil => simp only [List.nil_append, Meets, run, true_and]
  | cons c cs ih => simp only [List.cons_append, Meets, run, ih, and_assoc]

theorem meets_of_forall {ok : S → C → Prop} {cs : List C} (h : ∀ s, ∀ c ∈ cs, ok s c) (s : S) :
    Meets step ok s cs := by
  induction cs generalizing s with
  | nil => trivial
  | cons c cs ih =>
    exact ⟨h s c List.mem_cons_self, ih (fun s d hd => h s d (List.mem_cons_of_mem c hd)) _⟩

/-- A run that does not meet a condition has a first step that does not. -/
theorem exists_of_not_meets {ok : S → C → Prop} {s : S} {cs : List C}
    (h : ¬ Meets step ok s cs) :
    ∃ before c after, cs = before ++ c :: after ∧ Meets step ok s before ∧
      ¬ ok (run step s before) c := by
  induction cs generalizing s with
  | nil => exact absurd trivial h
  | cons c cs ih =>
    by_cases hc : ok s c
    · obtain ⟨before, d, after, rfl, hbefore, hd⟩ := ih fun hcs => h ⟨hc, hcs⟩
      exact ⟨c :: before, d, after, rfl, ⟨hc, hbefore⟩, hd⟩
    · exact ⟨[], c, cs, rfl, trivial, hc⟩

/-- A condition holds of all of a list, or there is a first element of which it does not. -/
theorem forall_or_exists_first {α : Type} (p : α → Prop) (l : List α) :
    (∀ a ∈ l, p a) ∨ ∃ before a after, l = before ++ a :: after ∧ (∀ b ∈ before, p b) ∧ ¬ p a := by
  induction l with
  | nil => exact Or.inl fun a ha => absurd ha List.not_mem_nil
  | cons first rest ih =>
    by_cases hfirst : p first
    · rcases ih with hrest | ⟨before, a, after, rfl, hbefore, ha⟩
      · exact Or.inl (List.forall_mem_cons.mpr ⟨hfirst, hrest⟩)
      · exact Or.inr ⟨first :: before, a, after, rfl,
          List.forall_mem_cons.mpr ⟨hfirst, hbefore⟩, ha⟩
    · exact Or.inr ⟨[], first, rest, rfl, fun b hb => absurd hb List.not_mem_nil, hfirst⟩

/-- An invariant that every step of a run preserves holds at its end. -/
theorem invariant {ok : S → C → Prop} (Inv : S → Prop)
    (hstep : ∀ s c, Inv s → ok s c → Inv (step s c)) {s : S} (hs : Inv s) {cs : List C}
    (hcs : Meets step ok s cs) : Inv (run step s cs) := by
  induction cs generalizing s with
  | nil => exact hs
  | cons c cs ih => exact ih (hstep s c hs hcs.1) hcs.2

/-- An invariant that every step preserves holds at the end of every run. -/
theorem invariant_of_forall (Inv : S → Prop) (hstep : ∀ s c, Inv s → Inv (step s c)) {s : S}
    (hs : Inv s) (cs : List C) : Inv (run step s cs) := by
  induction cs generalizing s with
  | nil => exact hs
  | cons c cs ih => exact ih (hstep s c hs)

end Runs
