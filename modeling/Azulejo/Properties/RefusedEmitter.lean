import Azulejo.Events.Specs

/-!
# Emitters that are refused

`RegisterEmitter` connects the consumers that wait for the key one by one and records the emitter
after the loop. At a consumer with another signature `Connect` throws. The two maps are then as
they were, but the connections with the consumers before it stay, and each further attempt makes
them again.
-/

namespace Azulejo

open AssocList Stateful EventChannel

namespace EventWorld

/-- The consumers that a registration of an emitter under `emitterKey` visits. -/
def waiting (world : EventWorld) (emitterKey : Key) : List IEventConsumer :=
  waitingConsumers emitterKey world.expiredConsumers world.channel.consumerMap

/-- The world after connections of `emitter` with `consumers` that the channel has not recorded. -/
def withConnections (world : EventWorld) (emitter : IEventEmitter)
    (consumers : List IEventConsumer) : EventWorld :=
  { world with connections := world.connections ++ consumers.map fun c => (emitter, c) }

/-- When `RegisterEmitter` throws, no connection was made and both maps are as before. -/
def FailsUnchanged (world : EventWorld) (emitterKey : Key) (emitter : IEventEmitter) : Prop :=
  ∀ e world', (registerEmitter emitterKey (some emitter)).run world = .error e world' →
    world'.connections = world.connections ∧ world'.channel = world.channel

/-! ## The two ends of a registration -/

/-- The loop connects the emitter with each consumer that waits for it. -/
theorem registerEmitter_eq {world : EventWorld} {emitterKey : Key} (hkey : emitterKey ≠ [])
    (hnew : emitterKey ∉ keys world.channel.emitterMap) (emitter : IEventEmitter) :
    (registerEmitter emitterKey (some emitter)).run world =
      (do connectEach emitter (world.waiting emitterKey)
          modify fun world => { world with
            channel := { world.channel with
              emitterMap := insertSorted emitterKey emitter world.channel.emitterMap } } :
        EStateM Exception EventWorld Unit).run world := by
  rw [registerEmitter_not_refused hkey hnew, EStateM.run_bind, EStateM.run_bind,
    connectConsumers_eq]
  rfl

theorem registerEmitter_ok {world : EventWorld} {emitterKey : Key} (hkey : emitterKey ≠ [])
    (hnew : emitterKey ∉ keys world.channel.emitterMap) {emitter : IEventEmitter}
    (htype : ∀ c ∈ world.waiting emitterKey, c.subscriberType = emitter.subscriberType) :
    ∃ world', (registerEmitter emitterKey (some emitter)).run world = .ok () world' := by
  rw [registerEmitter_eq hkey hnew, bind_ok (connectEach_run htype world)]
  exact ⟨_, rfl⟩

/-- The connections with the consumers before the first mismatch are all that a registration
leaves that throws there. -/
theorem registerEmitter_mismatch {world : EventWorld} {emitterKey : Key} (hkey : emitterKey ≠ [])
    (hnew : emitterKey ∉ keys world.channel.emitterMap) {emitter : IEventEmitter}
    {before after : List IEventConsumer} {consumer : IEventConsumer}
    (hwaiting : world.waiting emitterKey = before ++ consumer :: after)
    (hbefore : ∀ c ∈ before, c.subscriberType = emitter.subscriberType)
    (htype : consumer.subscriberType ≠ emitter.subscriberType) :
    ∃ e, (registerEmitter emitterKey (some emitter)).run world =
      .error e (world.withConnections emitter before) := by
  obtain ⟨e, he⟩ := connectEach_mismatch hbefore htype after world
  rw [← hwaiting] at he
  rw [registerEmitter_eq hkey hnew]
  exact ⟨e, bind_error he⟩

/-- A registration that throws at a mismatch changes nothing exactly if it is the first. -/
theorem failsUnchanged_mismatch_iff {world : EventWorld} {emitterKey : Key} (hkey : emitterKey ≠ [])
    (hnew : emitterKey ∉ keys world.channel.emitterMap) {emitter : IEventEmitter}
    {before after : List IEventConsumer} {consumer : IEventConsumer}
    (hwaiting : world.waiting emitterKey = before ++ consumer :: after)
    (hbefore : ∀ c ∈ before, c.subscriberType = emitter.subscriberType)
    (htype : consumer.subscriberType ≠ emitter.subscriberType) :
    FailsUnchanged world emitterKey emitter ↔ before = [] := by
  obtain ⟨e, he⟩ := registerEmitter_mismatch hkey hnew hwaiting hbefore htype
  constructor
  · intro hunchanged
    have hconnections := (hunchanged e _ he).1
    exact List.map_eq_nil_iff.mp
      (List.append_cancel_left (hconnections.trans (List.append_nil _).symm))
  · rintro rfl e' world' hrun
    rw [he] at hrun
    cases hrun
    exact ⟨List.append_nil _, rfl⟩

/-! ## Repeated attempts -/

/-- Every attempt that fails makes the connections before the mismatch once more. -/
theorem connections_after_attempts {world : EventWorld} {emitterKey : Key} (hkey : emitterKey ≠ [])
    (hnew : emitterKey ∉ keys world.channel.emitterMap) {emitter : IEventEmitter}
    {before after : List IEventConsumer} {consumer : IEventConsumer}
    (hwaiting : world.waiting emitterKey = before ++ consumer :: after)
    (hbefore : ∀ c ∈ before, c.subscriberType = emitter.subscriberType)
    (htype : consumer.subscriberType ≠ emitter.subscriberType) (n : Nat) :
    Runs.run step world (List.replicate n (.registerEmitter emitterKey (some emitter))) =
      world.withConnections emitter (List.replicate n before).flatten := by
  induction n generalizing world with
  | zero =>
    simp only [List.replicate_zero, List.flatten_nil, withConnections, List.map_nil,
      List.append_nil]
    rfl
  | succ n ih =>
    obtain ⟨e, he⟩ := registerEmitter_mismatch hkey hnew hwaiting hbefore htype
    have hstep : step world (.registerEmitter emitterKey (some emitter)) =
        world.withConnections emitter before := by
      unfold step call
      rw [he]
      rfl
    have hrest := @ih (world.withConnections emitter before) hnew hwaiting
    rw [List.replicate_succ, List.replicate_succ, List.flatten_cons]
    show Runs.run step (step world _) _ = _
    rw [hstep, hrest]
    simp only [withConnections, List.map_append, List.append_assoc]

end EventWorld

open EventWorld

/-- A registration that throws leaves no connection and changes neither map exactly if it is
refused before the loop, or the first of the waiting consumers that the loop visits has another
signature, or none of them has. -/
theorem registerEmitter_failsUnchanged_iff (world : EventWorld) (emitterKey : Key)
    (emitter : IEventEmitter) :
    FailsUnchanged world emitterKey emitter ↔
      emitterKey = [] ∨ emitterKey ∈ keys world.channel.emitterMap ∨
        (∃ c ∈ (world.waiting emitterKey).head?, c.subscriberType ≠ emitter.subscriberType) ∨
        ∀ c ∈ world.waiting emitterKey, c.subscriberType = emitter.subscriberType := by
  by_cases hrefused : emitterKey = [] ∨ emitterKey ∈ keys world.channel.emitterMap
  · refine iff_of_true ?_ (hrefused.elim Or.inl fun h => Or.inr (Or.inl h))
    have hstart : emitterKey = [] ∨ some emitter = none ∨
        emitterKey ∈ keys world.channel.emitterMap :=
      hrefused.elim Or.inl fun h => Or.inr (Or.inr h)
    obtain ⟨e, he⟩ := registerEmitter_refused hstart
    intro e' world' hrun
    rw [he] at hrun
    cases hrun
    exact ⟨rfl, rfl⟩
  · obtain ⟨hkey, hnew⟩ := not_or.mp hrefused
    rcases Runs.forall_or_exists_first
        (fun c : IEventConsumer => c.subscriberType = emitter.subscriberType)
        (world.waiting emitterKey) with
      hmatch | ⟨before, c, after, hsplit, hbefore, htype⟩
    · obtain ⟨world₁, hrun₁⟩ := registerEmitter_ok hkey hnew hmatch
      refine iff_of_true ?_ (Or.inr (Or.inr (Or.inr hmatch)))
      intro e world' hrun
      rw [hrun₁] at hrun
      cases hrun
    · rw [failsUnchanged_mismatch_iff hkey hnew hsplit hbefore htype]
      constructor
      · rintro rfl
        exact Or.inr (Or.inr (Or.inl ⟨c, by rw [hsplit]; rfl, htype⟩))
      · rintro (h | h | ⟨first, hfirst, hmismatch⟩ | h)
        · exact absurd h hkey
        · exact absurd h hnew
        · -- the first one does not match, so nothing stands before the mismatch
          cases before with
          | nil => rfl
          | cons b before =>
            rw [hsplit] at hfirst
            obtain rfl : b = first := Option.some.inj hfirst
            exact absurd (hbefore b List.mem_cons_self) hmismatch
        · have hc : c ∈ world.waiting emitterKey := by
            rw [hsplit]
            exact List.mem_append_right _ List.mem_cons_self
          exact absurd (h c hc) htype

/-- Two consumers wait for the emitter, and only the first has its signature. -/
def twoSignatures : EventWorld :=
  Runs.run step new
    [.registerConsumer "a".toList "e".toList (some ⟨1, "void()".toList⟩),
      .registerConsumer "b".toList "e".toList (some ⟨2, "int()".toList⟩)]

/-- The registration throws at the second consumer, and the first one stays connected. -/
theorem connected_before_mismatch :
    ¬ ∀ world emitterKey emitter, FailsUnchanged world emitterKey emitter := by
  intro h
  have hconnections := (h twoSignatures "e".toList ⟨3, "void()".toList⟩ _ _ rfl).1
  exact absurd hconnections (by decide)

end Azulejo
