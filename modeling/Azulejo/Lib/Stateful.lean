import Mathlib.Logic.Basic

/-!
# Programs with state and exceptions

`EStateM ε σ` keeps the state when an exception is thrown, as a program does that throws
after it has changed something. The lemmas here run a sequence of steps (`bind_ok`,
`bind_error`), take a finished run apart (`of_bind_ok`), say what a program leaves alone
(`Keeps`), and run a program on a part of the state (`zoom`).
-/

namespace Stateful

variable {ε σ τ α β : Type}

theorem bind_ok {x : EStateM ε σ α} {f : α → EStateM ε σ β} {s s' : σ} {a : α}
    (h : x.run s = .ok a s') : (x >>= f).run s = (f a).run s' := by
  rw [EStateM.run_bind, h]

theorem bind_error {x : EStateM ε σ α} {f : α → EStateM ε σ β} {s s' : σ} {e : ε}
    (h : x.run s = .error e s') : (x >>= f).run s = .error e s' := by
  rw [EStateM.run_bind, h]

/-- A sequence that returns has run its first step to the end, and then the rest. -/
theorem of_bind_ok {x : EStateM ε σ α} {f : α → EStateM ε σ β} {s t : σ} {b : β}
    (h : (x >>= f).run s = .ok b t) : ∃ a s', x.run s = .ok a s' ∧ (f a).run s' = .ok b t := by
  cases hx : x.run s with
  | ok a s' => exact ⟨a, s', rfl, by rwa [bind_ok hx] at h⟩
  | error e s' =>
    rw [bind_error hx] at h
    cases h

/-- A sequence that throws does so in its first step, or in the rest after that step. -/
theorem of_bind_error {x : EStateM ε σ α} {f : α → EStateM ε σ β} {s t : σ} {e : ε}
    (h : (x >>= f).run s = .error e t) :
    x.run s = .error e t ∨ ∃ a s', x.run s = .ok a s' ∧ (f a).run s' = .error e t := by
  cases hx : x.run s with
  | ok a s' => exact Or.inr ⟨a, s', rfl, by rwa [bind_ok hx] at h⟩
  | error e' s' =>
    rw [bind_error hx] at h
    cases h
    exact Or.inl rfl

/-- The state a run ends in, by returning or by an exception. -/
def finalState : EStateM.Result ε σ α → σ
  | .ok _ s => s
  | .error _ s => s

/-- A value that is returned in place of another does not change the state. -/
theorem finalState_bind_pure (x : EStateM ε σ α) (b : β) (s : σ) :
    finalState ((x >>= fun _ => pure b).run s) = finalState (x.run s) := by
  rw [EStateM.run_bind]
  cases x.run s <;> rfl

/-! ## Programs that leave a part of the state alone -/

/-- A program that does not change what `view` shows of the state, whether it returns or throws. -/
def Keeps (view : σ → τ) (x : EStateM ε σ α) : Prop := ∀ s, view (finalState (x.run s)) = view s

theorem keeps_pure (view : σ → τ) (a : α) : Keeps view (pure a : EStateM ε σ α) := fun _ => rfl

theorem keeps_get (view : σ → τ) : Keeps view (get : EStateM ε σ σ) := fun _ => rfl

theorem Keeps.bind {view : σ → τ} {x : EStateM ε σ α} {f : α → EStateM ε σ β} (hx : Keeps view x)
    (hf : ∀ a, Keeps view (f a)) : Keeps view (x >>= f) := by
  intro s
  have hfirst := hx s
  cases hrun : x.run s with
  | ok a s' =>
    rw [hrun] at hfirst
    rw [bind_ok hrun, hf a s']
    exact hfirst
  | error e s' =>
    rw [hrun] at hfirst
    rw [bind_error hrun]
    exact hfirst

/-- What a program that returned leaves alone. -/
theorem Keeps.eq {view : σ → τ} {x : EStateM ε σ α} (hx : Keeps view x) {s s' : σ} {a : α}
    (h : x.run s = .ok a s') : view s' = view s := by
  have hrun := hx s
  rw [h] at hrun
  exact hrun

theorem keeps_throw (view : σ → τ) (e : ε) : Keeps view (throw e : EStateM ε σ α) := fun _ => rfl

/-! ## Programs on a part of the state -/

/-- Run a program on a part of the state; the part is written back also when it throws. -/
def zoom (view : τ → σ) (update : τ → σ → τ) (x : EStateM ε σ α) : EStateM ε τ α := fun t =>
  match x.run (view t) with
  | .ok a s => .ok a (update t s)
  | .error e s => .error e (update t s)

theorem zoom_run (view : τ → σ) (update : τ → σ → τ) (x : EStateM ε σ α) (t : τ) :
    (zoom view update x).run t =
      match x.run (view t) with
      | .ok a s => .ok a (update t s)
      | .error e s => .error e (update t s) := rfl

theorem zoom_ok {view : τ → σ} {update : τ → σ → τ} {x : EStateM ε σ α} {t : τ} {s : σ} {a : α}
    (h : x.run (view t) = .ok a s) : (zoom view update x).run t = .ok a (update t s) := by
  rw [zoom_run, h]

theorem zoom_error {view : τ → σ} {update : τ → σ → τ} {x : EStateM ε σ α} {t : τ} {s : σ}
    {e : ε} (h : x.run (view t) = .error e s) :
    (zoom view update x).run t = .error e (update t s) := by
  rw [zoom_run, h]

/-- A program on a part leaves alone of the whole what it leaves alone of the part. -/
theorem Keeps.zoom {ρ : Type} {view : τ → σ} {update : τ → σ → τ} {x : EStateM ε σ α} {part : σ → ρ}
    {whole : τ → ρ} (hx : Keeps part x) (hview : ∀ t, whole t = part (view t))
    (hupdate : ∀ t s, whole (update t s) = part s) : Keeps whole (zoom view update x) := by
  intro t
  have hrun := hx (view t)
  rw [hview t, ← hrun, zoom_run]
  cases x.run (view t) with
  | ok a s => exact hupdate t s
  | error e s => exact hupdate t s

theorem of_zoom_ok {view : τ → σ} {update : τ → σ → τ} {x : EStateM ε σ α} {t t' : τ} {a : α}
    (h : (zoom view update x).run t = .ok a t') :
    ∃ s, x.run (view t) = .ok a s ∧ t' = update t s := by
  cases hx : x.run (view t) with
  | ok b s =>
    rw [zoom_ok hx] at h
    cases h
    exact ⟨s, rfl, rfl⟩
  | error e s =>
    rw [zoom_error hx] at h
    cases h

/-- Run a program and go on with what it returned or threw, in the state it left. -/
def attempt (x : EStateM ε σ α) : EStateM ε σ (Except ε α) := fun s =>
  match x.run s with
  | .ok a s' => .ok (.ok a) s'
  | .error e s' => .ok (.error e) s'

theorem attempt_ok {x : EStateM ε σ α} {s s' : σ} {a : α} (h : x.run s = .ok a s') :
    (attempt x).run s = .ok (.ok a) s' := by
  simp only [attempt, EStateM.run] at h ⊢
  rw [h]

theorem attempt_error {x : EStateM ε σ α} {s s' : σ} {e : ε} (h : x.run s = .error e s') :
    (attempt x).run s = .ok (.error e) s' := by
  simp only [attempt, EStateM.run] at h ⊢
  rw [h]

/-- A computation without state. -/
def lift (x : Except ε α) : EStateM ε σ α := fun s =>
  match x with
  | .ok a => .ok a s
  | .error e => .error e s

theorem lift_ok {x : Except ε α} {a : α} (h : x = .ok a) (s : σ) :
    (lift x : EStateM ε σ α).run s = .ok a s := by
  subst h
  rfl

theorem keeps_lift (view : σ → τ) (x : Except ε α) : Keeps view (lift x : EStateM ε σ α) := by
  intro s
  cases x <;> rfl

theorem lift_error {x : Except ε α} {e : ε} (h : x = .error e) (s : σ) :
    (lift x : EStateM ε σ α).run s = .error e s := by
  subst h
  rfl

end Stateful
