import Mathlib.Order.WellFounded
import Mathlib.Tactic.ByContra

/-!
# Transition systems with events

A system whose events are not always enabled: `step s e = none` says that `e` cannot happen in
`s`. A run is a list of events that happen one after the other. `Along` says of a run that each
of its events happens in a state in which a condition holds; what such events preserve holds at
the end of the run. Events that all make a measure smaller lead to a state in which none of them
can happen.
-/

namespace Transitions

variable {S E : Type} (step : S → E → Option S)

/-- The state after a run. -/
def after (s : S) : List E → Option S
  | [] => some s
  | e :: es =>
    match step s e with
    | none => none
    | some s' => after s' es

/-- Each event of the run happens in a state in which the condition `ok` holds. -/
def Along (ok : S → E → Prop) (s : S) : List E → Prop
  | [] => True
  | e :: es => ok s e ∧ ∀ s', step s e = some s' → Along ok s' es

/-- `t` can be reached from `s`. -/
def Reaches (s t : S) : Prop := ∃ es, after step s es = some t

variable {step}

theorem after_cons {s s' : S} {e : E} (h : step s e = some s') (es : List E) :
    after step s (e :: es) = after step s' es := by
  simp only [after, h]

theorem after_cons_eq_some {s t : S} {e : E} {es : List E}
    (h : after step s (e :: es) = some t) :
    ∃ s', step s e = some s' ∧ after step s' es = some t := by
  cases hstep : step s e with
  | none => simp only [after, hstep, reduceCtorEq] at h
  | some s' => exact ⟨s', rfl, by rwa [after_cons hstep] at h⟩

theorem after_append {s t : S} {es : List E} (h : after step s es = some t) (fs : List E) :
    after step s (es ++ fs) = after step t fs := by
  induction es generalizing s with
  | nil =>
    cases h
    rfl
  | cons e es ih =>
    obtain ⟨s', hstep, hrest⟩ := after_cons_eq_some h
    rw [List.cons_append, after_cons hstep, ih hrest]

theorem after_concat_eq_some {s t : S} {e : E} {es : List E}
    (h : after step s (es ++ [e]) = some t) :
    ∃ s', after step s es = some s' ∧ step s' e = some t := by
  induction es generalizing s with
  | nil =>
    obtain ⟨s', he, hrest⟩ := after_cons_eq_some h
    cases hrest
    exact ⟨s, rfl, he⟩
  | cons d es ih =>
    obtain ⟨s', hd, hrest⟩ := after_cons_eq_some h
    obtain ⟨t', hes, he⟩ := ih hrest
    exact ⟨t', by rw [after_cons hd, hes], he⟩

theorem Reaches.refl (s : S) : Reaches step s s := ⟨[], rfl⟩

theorem Reaches.trans {s t u : S} (h : Reaches step s t) (h' : Reaches step t u) :
    Reaches step s u := by
  obtain ⟨es, hes⟩ := h
  obtain ⟨fs, hfs⟩ := h'
  exact ⟨es ++ fs, by rw [after_append hes, hfs]⟩

theorem Reaches.single {s t : S} {e : E} (h : step s e = some t) : Reaches step s t :=
  ⟨[e], by rw [after_cons h]; rfl⟩

/-- Whether the events of a run meet a condition can be evaluated. -/
instance decidableAlong {ok : S → E → Prop} [∀ s e, Decidable (ok s e)] (s : S) :
    (es : List E) → Decidable (Along step ok s es)
  | [] => .isTrue trivial
  | e :: es =>
    have : Decidable (∀ s', step s e = some s' → Along step ok s' es) :=
      match h : step s e with
      | none => .isTrue nofun
      | some s' =>
        have : Decidable (Along step ok s' es) := decidableAlong s' es
        decidable_of_iff (Along step ok s' es) (by simp only [Option.some.injEq, forall_eq'])
    inferInstanceAs (Decidable (ok s e ∧ ∀ s', step s e = some s' → Along step ok s' es))

/-! ## Invariants -/

/-- A condition that each event of the run meets in every state. -/
theorem along_of_forall {ok : S → E → Prop} {es : List E} (h : ∀ s, ∀ e ∈ es, ok s e) (s : S) :
    Along step ok s es := by
  induction es generalizing s with
  | nil => trivial
  | cons e es ih =>
    exact ⟨h s e List.mem_cons_self,
      fun s' _ => ih (fun s d hd => h s d (List.mem_cons_of_mem e hd)) s'⟩

theorem Along.mono {ok ok' : S → E → Prop} {s : S} {es : List E} (h : Along step ok s es)
    (hok : ∀ s e, ok s e → ok' s e) : Along step ok' s es := by
  induction es generalizing s with
  | nil => trivial
  | cons e es ih => exact ⟨hok s e h.1, fun s' hs' => ih (h.2 s' hs')⟩

/-- A condition on the events alone can be added to one on states and events. -/
theorem Along.and_forall {ok : S → E → Prop} {P : E → Prop} {s : S} {es : List E}
    (h : Along step ok s es) (hP : ∀ e ∈ es, P e) :
    Along step (fun s e => P e ∧ ok s e) s es := by
  induction es generalizing s with
  | nil => trivial
  | cons e es ih =>
    refine ⟨⟨hP e List.mem_cons_self, h.1⟩, fun s' hs' => ?_⟩
    exact ih (h.2 s' hs') fun d hd => hP d (List.mem_cons_of_mem e hd)

/-- The two parts of a run. -/
theorem Along.of_append {ok : S → E → Prop} {s t : S} {es fs : List E}
    (h : Along step ok s (es ++ fs)) (hes : after step s es = some t) :
    Along step ok s es ∧ Along step ok t fs := by
  induction es generalizing s with
  | nil =>
    cases hes
    exact ⟨trivial, h⟩
  | cons e es ih =>
    obtain ⟨s', he, hrest⟩ := after_cons_eq_some hes
    obtain ⟨-, hfs⟩ := ih (h.2 s' he) hrest
    refine ⟨⟨h.1, fun s'' hs'' => ?_⟩, hfs⟩
    rw [he] at hs''
    cases hs''
    exact (ih (h.2 s' he) hrest).1

/-- An invariant that every event of a run preserves holds at its end. -/
theorem invariant {ok : S → E → Prop} (Inv : S → Prop)
    (hstep : ∀ s e s', Inv s → ok s e → step s e = some s' → Inv s') {s t : S} {es : List E}
    (hs : Inv s) (hok : Along step ok s es) (h : after step s es = some t) : Inv t := by
  induction es generalizing s with
  | nil =>
    cases h
    exact hs
  | cons e es ih =>
    obtain ⟨s', he, hrest⟩ := after_cons_eq_some h
    exact ih (hstep s e s' hs hok.1 he) (hok.2 s' he) hrest

/-- An invariant that every event preserves holds in every state that is reached. -/
theorem Reaches.invariant (Inv : S → Prop)
    (hstep : ∀ s e s', Inv s → step s e = some s' → Inv s') {s t : S} (hs : Inv s)
    (h : Reaches step s t) : Inv t := by
  obtain ⟨es, hes⟩ := h
  induction es generalizing s with
  | nil =>
    cases hes
    exact hs
  | cons e es ih =>
    obtain ⟨s', he, hrest⟩ := after_cons_eq_some hes
    exact ih (hstep s e s' hs he) hrest

/-- A run with an event that does not meet a condition has a first one. -/
theorem exists_of_not_along {ok : S → E → Prop} {s t : S} {es : List E}
    (h : after step s es = some t) (hnot : ¬ Along step ok s es) :
    ∃ before e rest s₁ s₂, es = before ++ e :: rest ∧ after step s before = some s₁ ∧
      Along step ok s before ∧ ¬ ok s₁ e ∧ step s₁ e = some s₂ ∧ after step s₂ rest = some t := by
  induction es generalizing s with
  | nil => exact absurd trivial hnot
  | cons e es ih =>
    obtain ⟨s', he, hrest⟩ := after_cons_eq_some h
    by_cases hok : ok s e
    · have hnot' : ¬ Along step ok s' es := by
        intro halong
        apply hnot
        refine ⟨hok, fun s'' hs'' => ?_⟩
        rw [he] at hs''
        cases hs''
        exact halong
      obtain ⟨before, d, rest, s₁, s₂, rfl, hbefore, hmet, hd, hstep, hend⟩ := ih hrest hnot'
      refine ⟨e :: before, d, rest, s₁, s₂, rfl, ?_, ⟨hok, ?_⟩, hd, hstep, hend⟩
      · rw [after_cons he, hbefore]
      · intro s'' hs''
        rw [he] at hs''
        cases hs''
        exact hmet
    · exact ⟨[], e, es, s, s', rfl, rfl, trivial, hok, he, hrest⟩

/-! ## Two systems -/

/-- When each step of a system is one of another system, or leaves what the other shows as it is,
the other reaches what the first one reaches. -/
theorem Reaches.simulation {T F : Type} {step' : T → F → Option T} (view : S → T) (Inv : S → Prop)
    (hstep : ∀ s e s', Inv s → step s e = some s' →
      Inv s' ∧ (view s' = view s ∨ ∃ f, step' (view s) f = some (view s')))
    {s t : S} (hs : Inv s) (h : Reaches step s t) : Inv t ∧ Reaches step' (view s) (view t) := by
  obtain ⟨es, hes⟩ := h
  induction es generalizing s with
  | nil =>
    cases hes
    exact ⟨hs, .refl _⟩
  | cons e es ih =>
    obtain ⟨s', he, hrest⟩ := after_cons_eq_some hes
    obtain ⟨hinv, hview⟩ := hstep s e s' hs he
    obtain ⟨hend, hreaches⟩ := ih hinv hrest
    refine ⟨hend, ?_⟩
    rcases hview with hsame | ⟨f, hf⟩
    · rwa [hsame] at hreaches
    · exact (Reaches.single hf).trans hreaches

/-- When another system gets to the end of each step of a system, it gets to the end of its runs. -/
theorem Reaches.refine {T F : Type} {step' : T → F → Option T} (view : S → T)
    (hstep : ∀ s e s', step s e = some s' → Reaches step' (view s) (view s')) {s t : S}
    (h : Reaches step s t) : Reaches step' (view s) (view t) := by
  obtain ⟨es, hes⟩ := h
  induction es generalizing s with
  | nil =>
    cases hes
    exact .refl _
  | cons e es ih =>
    obtain ⟨s', he, hrest⟩ := after_cons_eq_some hes
    exact (hstep s e s' he).trans (ih hrest)

/-! ## Progress -/

/-- A run of events that make a measure smaller has at most as many events as the measure says. -/
theorem length_le_of_decreases (μ : S → Nat) {ok : S → E → Prop} (Inv : S → Prop)
    (hstep : ∀ s e s', Inv s → ok s e → step s e = some s' → Inv s') {progress : E → Prop}
    (hdecreases : ∀ s e s', Inv s → progress e → step s e = some s' → μ s' < μ s) {s t : S}
    {es : List E} (hs : Inv s) (hes : ∀ e ∈ es, progress e) (hok : Along step ok s es)
    (h : after step s es = some t) : es.length + μ t ≤ μ s := by
  induction es generalizing s with
  | nil =>
    cases h
    rw [List.length_nil, Nat.zero_add]
  | cons e es ih =>
    obtain ⟨s', he, hrest⟩ := after_cons_eq_some h
    have hless := hdecreases s e s' hs (hes e List.mem_cons_self) he
    have hle := ih (hstep s e s' hs hok.1 he) (fun d hd => hes d (List.mem_cons_of_mem e hd))
      (hok.2 s' he) hrest
    rw [List.length_cons]
    omega

/-- Events that make a measure smaller, under an invariant and a condition on the run, lead to
a state in which none of them can happen under the condition. -/
theorem exists_quiescent_along {γ : Type} [Preorder γ] [WellFoundedLT γ] (μ : S → γ)
    (ok : S → E → Prop) (Inv : S → Prop)
    (hstep : ∀ s e s', Inv s → ok s e → step s e = some s' → Inv s') (progress : E → Prop)
    (hdecreases : ∀ s e s', Inv s → progress e → step s e = some s' → μ s' < μ s) {s : S}
    (hs : Inv s) :
    ∃ es t, (∀ e ∈ es, progress e) ∧ Along step ok s es ∧ after step s es = some t ∧ Inv t ∧
      ∀ e, progress e → ok t e → step t e = none := by
  generalize hn : μ s = n
  induction n using WellFoundedLT.induction generalizing s with
  | _ n ih =>
    by_cases hquiet : ∀ e, progress e → ok s e → step s e = none
    · exact ⟨[], s, fun e he => absurd he List.not_mem_nil, trivial, rfl, hs, hquiet⟩
    · rw [not_forall] at hquiet
      obtain ⟨e, he⟩ := hquiet
      rw [Classical.not_imp, Classical.not_imp] at he
      obtain ⟨hprogress, hok, henabled⟩ := he
      obtain ⟨s', hs'⟩ := Option.ne_none_iff_exists'.mp henabled
      have hless := hdecreases s e s' hs hprogress hs'
      rw [hn] at hless
      obtain ⟨es, t, hes, halong, hafter, hinv, hquiet⟩ :=
        ih _ hless (hstep s e s' hs hok hs') rfl
      refine ⟨e :: es, t, ?_, ⟨hok, fun s'' hs'' => ?_⟩, by rw [after_cons hs', hafter], hinv,
        hquiet⟩
      · intro d hd
        rcases List.mem_cons.mp hd with rfl | hd
        · exact hprogress
        · exact hes d hd
      · rw [hs'] at hs''
        cases hs''
        exact halong

/-- Events that make a measure smaller lead to a state in which none of them can happen. -/
theorem exists_quiescent {γ : Type} [Preorder γ] [WellFoundedLT γ] (μ : S → γ)
    (progress : E → Prop)
    (hdecreases : ∀ s e s', progress e → step s e = some s' → μ s' < μ s) (s : S) :
    ∃ es t, (∀ e ∈ es, progress e) ∧ after step s es = some t ∧
      ∀ e, progress e → step t e = none := by
  obtain ⟨es, t, hes, -, hafter, -, hquiet⟩ :=
    exists_quiescent_along μ (fun _ _ => True) (fun _ => True) (fun _ _ _ _ _ _ => trivial)
      progress (fun s e s' _ => hdecreases s e s') (show True from trivial)
  exact ⟨es, t, hes, hafter, fun e he => hquiet e he trivial⟩

end Transitions
