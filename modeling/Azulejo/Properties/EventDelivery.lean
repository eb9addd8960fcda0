import Azulejo.Events.Lifetimes
import Azulejo.Events.Specs
import Mathlib.Data.List.Induction

/-!
# Whom an event reaches

Whatever is registered, refused, unregistered and destroyed: an emitter reaches every consumer that
is registered for its key, and nobody whom it has not met. An emitter meets a consumer in the call
that registers one of them while the other is registered for the same key.
-/

namespace Azulejo

open AssocList Stateful EventChannel Transitions

namespace EventWorld

/-! ## What a call connects -/

/-- The call registers the one of the two while the other is registered, and they match. -/
def Meets (world : EventWorld) (c : ChannelCall) (p : IEventEmitter × IEventConsumer) : Prop :=
  p.2.subscriberType = p.1.subscriberType ∧
    match c with
    | .registerEmitter emitterKey (some emitter) =>
      p.1 = emitter ∧ ∃ q ∈ world.channel.consumerMap, (ofLex q.1).2 = emitterKey ∧ q.2 = p.2
    | .registerConsumer _ emitterKey (some consumer) =>
      p.2 = consumer ∧ (emitterKey, p.1) ∈ world.channel.emitterMap
    | _ => False

/-- The world with more connections. -/
def connecting (world : EventWorld) (made : List (IEventEmitter × IEventConsumer)) : EventWorld :=
  { world with connections := world.connections ++ made }

/-- One `Connect` after the other. -/
def connectAll : List (IEventEmitter × IEventConsumer) → EStateM Exception EventWorld Unit
  | [] => pure ()
  | p :: rest => do
    p.1.connect p.2
    connectAll rest

theorem connectAll_cons_run {p : IEventEmitter × IEventConsumer}
    (h : p.2.subscriberType = p.1.subscriberType) (rest : List (IEventEmitter × IEventConsumer))
    (world : EventWorld) :
    (connectAll (p :: rest)).run world = (connectAll rest).run (world.connecting [p]) :=
  bind_ok (connect_run h world)

/-- The connections before the first mismatch are made. -/
theorem connectAll_cases (asked : List (IEventEmitter × IEventConsumer)) (world : EventWorld) :
    ∃ made, made <+: asked ∧ (∀ p ∈ made, p.2.subscriberType = p.1.subscriberType) ∧
      (made = asked ∧ (connectAll asked).run world = .ok () (world.connecting made) ∨
        ∃ e, (connectAll asked).run world = .error e (world.connecting made)) := by
  induction asked generalizing world with
  | nil =>
    refine ⟨[], List.prefix_rfl, fun p hp => absurd hp List.not_mem_nil, Or.inl ⟨rfl, ?_⟩⟩
    unfold connecting
    rw [List.append_nil]
    rfl
  | cons p rest ih =>
    by_cases htype : p.2.subscriberType = p.1.subscriberType
    · obtain ⟨made, hfirst, htypes, hends⟩ := ih (world.connecting [p])
      have hmade : (world.connecting [p]).connecting made = world.connecting (p :: made) := by
        unfold connecting
        rw [List.append_assoc, List.singleton_append]
      rw [hmade] at hends
      rw [connectAll_cons_run htype]
      refine ⟨p :: made, (List.prefix_cons_inj p).mpr hfirst, ?_, hends.imp ?_ id⟩
      · exact List.forall_mem_cons.mpr ⟨htype, htypes⟩
      · rintro ⟨rfl, hok⟩
        exact ⟨rfl, hok⟩
    · obtain ⟨e, he⟩ := connect_mismatch htype world
      refine ⟨[], List.nil_prefix, fun p hp => absurd hp List.not_mem_nil, Or.inr ⟨e, ?_⟩⟩
      unfold connecting
      rw [List.append_nil]
      exact bind_error he

theorem connectEach_eq (emitter : IEventEmitter) (consumers : List IEventConsumer) :
    connectEach emitter consumers = connectAll (consumers.map fun c => (emitter, c)) := by
  induction consumers with
  | nil => rfl
  | cons consumer rest ih =>
    unfold connectEach
    rw [ih]
    rfl

/-- The emitters that the loop of `RegisterConsumer` visits. -/
def waitingEmitters (emitterKey : Key) (expired : List IEventEmitter)
    (emitterMap : List (Key × IEventEmitter)) : List IEventEmitter :=
  (emitterMap.filter fun p => p.1 = emitterKey ∧ p.2 ∉ expired).map Prod.snd

theorem connectEmitters_eq (emitterKey : Key) (consumer : IEventConsumer)
    (l : List (Key × IEventEmitter)) (world : EventWorld) :
    (connectEmitters emitterKey consumer l).run world =
      (connectAll ((waitingEmitters emitterKey world.expiredEmitters l).map fun e =>
        (e, consumer))).run world := by
  induction l generalizing world with
  | nil => rfl
  | cons p l ih =>
    obtain ⟨name, emitter⟩ := p
    unfold connectEmitters
    rw [bind_ok (EStateM.run_get world)]
    by_cases hvisit : name = emitterKey ∧ emitter ∉ world.expiredEmitters
    · have hwaiting : waitingEmitters emitterKey world.expiredEmitters ((name, emitter) :: l) =
          emitter :: waitingEmitters emitterKey world.expiredEmitters l := by
        simp only [waitingEmitters, List.filter_cons, hvisit, not_false_eq_true, and_self,
          decide_true, if_true, List.map_cons]
      rw [if_pos hvisit, hwaiting]
      by_cases htype : consumer.subscriberType = emitter.subscriberType
      · rw [bind_ok (connect_run htype world), List.map_cons, connectAll_cons_run htype]
        exact ih _
      · obtain ⟨e, he⟩ := connect_mismatch htype world
        exact (bind_error he).trans (bind_error he).symm
    · have hwaiting : waitingEmitters emitterKey world.expiredEmitters ((name, emitter) :: l) =
          waitingEmitters emitterKey world.expiredEmitters l := by
        simp only [waitingEmitters, List.filter_cons, hvisit, decide_false, Bool.false_eq_true,
          if_false]
      rw [if_neg hvisit, hwaiting]
      exact ih world

theorem mem_waitingConsumers {emitterKey : Key} {expired : List IEventConsumer}
    {l : List ((Key ×ₗ Key) × IEventConsumer)} {c : IEventConsumer} :
    c ∈ waitingConsumers emitterKey expired l ↔
      ∃ q ∈ l, ((ofLex q.1).2 = emitterKey ∧ q.2 ∉ expired) ∧ q.2 = c := by
  simp only [waitingConsumers, List.mem_map, List.mem_filter, decide_eq_true_eq, and_assoc]

theorem mem_waitingEmitters {emitterKey : Key} {expired : List IEventEmitter}
    {l : List (Key × IEventEmitter)} {e : IEventEmitter} :
    e ∈ waitingEmitters emitterKey expired l ↔ (emitterKey, e) ∈ l ∧ e ∉ expired := by
  simp only [waitingEmitters, List.mem_map, List.mem_filter, decide_eq_true_eq]
  constructor
  · rintro ⟨⟨name, emitter⟩, ⟨hmem, rfl, hexpired⟩, rfl⟩
    exact ⟨hmem, hexpired⟩
  · rintro ⟨hmem, hexpired⟩
    exact ⟨_, ⟨hmem, rfl, hexpired⟩, rfl⟩

/-- What a call does: it connects some that meet in it, and what it adds to a map is connected with
what the other map has for it. -/
structure Outcome (world : EventWorld) (c : ChannelCall) (world' : EventWorld) : Prop where
  expiredEmitters : world'.expiredEmitters = world.expiredEmitters
  expiredConsumers : world'.expiredConsumers = world.expiredConsumers
  connections : ∃ made, world'.connections = world.connections ++ made ∧
    ∀ p ∈ made, Meets world c p
  emitters : ∀ p ∈ world'.channel.emitterMap, p ∈ world.channel.emitterMap ∨
    ∀ q ∈ world'.channel.consumerMap, (ofLex q.1).2 = p.1 → q.2 ∉ world.expiredConsumers →
      (p.2, q.2) ∈ world'.connections
  consumers : ∀ q ∈ world'.channel.consumerMap, q ∈ world.channel.consumerMap ∨
    ∀ p ∈ world'.channel.emitterMap, (ofLex q.1).2 = p.1 → p.2 ∉ world.expiredEmitters →
      (p.2, q.2) ∈ world'.connections

/-- A call that adds nothing to the maps. -/
theorem Outcome.of_connecting {world : EventWorld} {c : ChannelCall}
    {made : List (IEventEmitter × IEventConsumer)} (h : ∀ p ∈ made, Meets world c p) :
    Outcome world c (world.connecting made) :=
  ⟨rfl, rfl, ⟨made, rfl, h⟩, fun _ hp => Or.inl hp, fun _ hq => Or.inl hq⟩

theorem Outcome.of_nothing (world : EventWorld) (c : ChannelCall) : Outcome world c world :=
  ⟨rfl, rfl, ⟨[], (List.append_nil _).symm, fun _ hp => absurd hp List.not_mem_nil⟩,
    fun _ hp => Or.inl hp, fun _ hq => Or.inl hq⟩

theorem outcome_registerEmitter (world : EventWorld) (emitterKey : Key)
    (emitter : Option IEventEmitter) :
    Outcome world (.registerEmitter emitterKey emitter)
      (world.step (.registerEmitter emitterKey emitter)) := by
  by_cases hrefused : emitterKey = [] ∨ emitter = none ∨ emitterKey ∈ keys world.channel.emitterMap
  · obtain ⟨e, he⟩ := registerEmitter_refused hrefused
    have hstep : world.step (.registerEmitter emitterKey emitter) = world :=
      congrArg finalState he
    rw [hstep]
    exact .of_nothing _ _
  · rw [not_or, not_or] at hrefused
    obtain ⟨hkey, hemitter, hnew⟩ := hrefused
    obtain ⟨emitter, rfl⟩ := Option.ne_none_iff_exists'.mp hemitter
    obtain ⟨made, hfirst, htypes, hends⟩ := connectAll_cases
      ((waitingConsumers emitterKey world.expiredConsumers world.channel.consumerMap).map
        fun c => (emitter, c)) world
    have hmet : ∀ p ∈ made, Meets world (.registerEmitter emitterKey (some emitter)) p := by
      intro p hp
      obtain ⟨c, hc, rfl⟩ := List.mem_map.mp (hfirst.subset hp)
      obtain ⟨q, hq, ⟨hname, -⟩, rfl⟩ := mem_waitingConsumers.mp hc
      exact ⟨htypes _ hp, rfl, q, hq, hname, rfl⟩
    rw [← connectEach_eq, ← connectConsumers_eq] at hends
    have hrun := registerEmitter_not_refused hkey hnew emitter
    rcases hends with ⟨hmade, hok⟩ | ⟨e, he⟩
    · have hstep : world.step (.registerEmitter emitterKey (some emitter)) =
          { world.connecting made with
            channel := { world.channel with
              emitterMap := insertSorted emitterKey emitter world.channel.emitterMap } } :=
        congrArg finalState (hrun.trans (bind_ok hok))
      rw [hstep]
      refine ⟨rfl, rfl, ⟨made, rfl, hmet⟩, fun p hp => ?_, fun q hq => Or.inl hq⟩
      rcases mem_of_mem_insertSorted hp with rfl | hp
      · right
        intro q hq hname halive
        refine List.mem_append_right _ ?_
        rw [hmade]
        exact List.mem_map.mpr ⟨q.2, mem_waitingConsumers.mpr ⟨q, hq, ⟨hname, halive⟩, rfl⟩, rfl⟩
      · exact Or.inl hp
    · have hstep : world.step (.registerEmitter emitterKey (some emitter)) =
          world.connecting made := congrArg finalState (hrun.trans (bind_error he))
      rw [hstep]
      exact .of_connecting hmet

theorem outcome_registerConsumer (world : EventWorld) (consumerKey emitterKey : Key)
    (consumer : Option IEventConsumer) :
    Outcome world (.registerConsumer consumerKey emitterKey consumer)
      (world.step (.registerConsumer consumerKey emitterKey consumer)) := by
  by_cases hrefused : consumerKey = [] ∨ emitterKey = [] ∨ consumer = none ∨
    toLex (consumerKey, emitterKey) ∈ keys world.channel.consumerMap
  · obtain ⟨e, he⟩ := registerConsumer_refused hrefused
    have hstep : world.step (.registerConsumer consumerKey emitterKey consumer) = world :=
      congrArg finalState he
    rw [hstep]
    exact .of_nothing _ _
  · rw [not_or, not_or, not_or] at hrefused
    obtain ⟨hconsumerKey, hemitterKey, hconsumer, hnew⟩ := hrefused
    obtain ⟨consumer, rfl⟩ := Option.ne_none_iff_exists'.mp hconsumer
    obtain ⟨made, hfirst, htypes, hends⟩ := connectAll_cases
      ((waitingEmitters emitterKey world.expiredEmitters world.channel.emitterMap).map
        fun e => (e, consumer)) world
    have hmet : ∀ p ∈ made,
        Meets world (.registerConsumer consumerKey emitterKey (some consumer)) p := by
      intro p hp
      obtain ⟨e, he, rfl⟩ := List.mem_map.mp (hfirst.subset hp)
      exact ⟨htypes _ hp, rfl, (mem_waitingEmitters.mp he).1⟩
    rw [← connectEmitters_eq] at hends
    have hrun := registerConsumer_not_refused hconsumerKey hemitterKey hnew consumer
    rcases hends with ⟨hmade, hok⟩ | ⟨e, he⟩
    · have hstep : world.step (.registerConsumer consumerKey emitterKey (some consumer)) =
          { world.connecting made with
            channel := { world.channel with
              consumerMap :=
                insertSorted (toLex (consumerKey, emitterKey)) consumer
                  world.channel.consumerMap } } :=
        congrArg finalState (hrun.trans (bind_ok hok))
      rw [hstep]
      refine ⟨rfl, rfl, ⟨made, rfl, hmet⟩, fun p hp => Or.inl hp, fun q hq => ?_⟩
      rcases mem_of_mem_insertSorted hq with rfl | hq
      · right
        intro p hp hname halive
        refine List.mem_append_right _ ?_
        rw [hmade]
        have hmem : (emitterKey, p.2) ∈ world.channel.emitterMap := by
          have hkey : emitterKey = p.1 := hname
          rw [hkey]
          exact hp
        exact List.mem_map.mpr ⟨p.2, mem_waitingEmitters.mpr ⟨hmem, halive⟩, rfl⟩
      · exact Or.inl hq
    · have hstep : world.step (.registerConsumer consumerKey emitterKey (some consumer)) =
          world.connecting made := congrArg finalState (hrun.trans (bind_error he))
      rw [hstep]
      exact .of_connecting hmet

theorem outcome_step (world : EventWorld) (c : ChannelCall) : Outcome world c (world.step c) := by
  cases c with
  | registerEmitter emitterKey emitter => exact outcome_registerEmitter world emitterKey emitter
  | registerConsumer consumerKey emitterKey consumer =>
    exact outcome_registerConsumer world consumerKey emitterKey consumer
  | unregisterEmitter emitterKey =>
    by_cases hrefused : emitterKey = [] ∨ emitterKey ∉ keys world.channel.emitterMap
    · obtain ⟨e, he⟩ := unregisterEmitter_refused hrefused
      have hstep : world.step (.unregisterEmitter emitterKey) = world := congrArg finalState he
      rw [hstep]
      exact .of_nothing _ _
    · rw [not_or, not_not] at hrefused
      have hstep : world.step (.unregisterEmitter emitterKey) = world.withoutEmitter emitterKey :=
        congrArg finalState (unregisterEmitter_run hrefused.1 hrefused.2)
      rw [hstep]
      exact ⟨rfl, rfl, ⟨[], (List.append_nil _).symm, fun _ hp => absurd hp List.not_mem_nil⟩,
        fun p hp => Or.inl (List.mem_of_mem_filter hp), fun q hq => Or.inl hq⟩
  | unregisterConsumer consumerKey emitterKey =>
    by_cases hrefused : consumerKey = [] ∨ emitterKey = [] ∨
      toLex (consumerKey, emitterKey) ∉ keys world.channel.consumerMap
    · obtain ⟨e, he⟩ := unregisterConsumer_refused hrefused
      have hstep : world.step (.unregisterConsumer consumerKey emitterKey) = world :=
        congrArg finalState he
      rw [hstep]
      exact .of_nothing _ _
    · rw [not_or, not_or, not_not] at hrefused
      have hstep : world.step (.unregisterConsumer consumerKey emitterKey) =
          world.withoutConsumer consumerKey emitterKey :=
        congrArg finalState (unregisterConsumer_run hrefused.1 hrefused.2.1 hrefused.2.2)
      rw [hstep]
      exact ⟨rfl, rfl, ⟨[], (List.append_nil _).symm, fun _ hp => absurd hp List.not_mem_nil⟩,
        fun p hp => Or.inl hp, fun q hq => Or.inl (List.mem_of_mem_filter hq)⟩

/-! ## Runs -/

/-- Emitters and consumers that are registered for one key are connected, while both are there. -/
def Connected (world : EventWorld) : Prop :=
  ∀ p ∈ world.channel.emitterMap, ∀ q ∈ world.channel.consumerMap, (ofLex q.1).2 = p.1 →
    p.2 ∉ world.expiredEmitters → q.2 ∉ world.expiredConsumers → (p.2, q.2) ∈ world.connections

theorem connected_call {world : EventWorld} (h : world.Connected) (c : ChannelCall) :
    (world.step c).Connected := by
  have houtcome := outcome_step world c
  intro p hp q hq hname hemitter hconsumer
  rw [houtcome.expiredEmitters] at hemitter
  rw [houtcome.expiredConsumers] at hconsumer
  rcases houtcome.emitters p hp with holdEmitter | hconnected
  · rcases houtcome.consumers q hq with holdConsumer | hconnected
    · obtain ⟨made, hmade, -⟩ := houtcome.connections
      rw [hmade]
      exact List.mem_append_left _ (h p holdEmitter q holdConsumer hname hemitter hconsumer)
    · exact hconnected p hp hname hemitter
  · exact hconnected q hq hname hconsumer

theorem connected_event (world : EventWorld) (e : ObjectEvent) (world' : EventWorld)
    (h : world.Connected) (hevent : world.event e = some world') : world'.Connected := by
  cases e with
  | call c =>
    simp only [event, Option.ite_none_right_eq_some, Option.some.injEq] at hevent
    obtain ⟨-, rfl⟩ := hevent
    exact connected_call h c
  | emitterDestroyed emitter =>
    simp only [event, Option.ite_none_left_eq_some, Option.some.injEq] at hevent
    obtain ⟨-, rfl⟩ := hevent
    intro p hp q hq hname hemitter hconsumer
    exact h p hp q hq hname (fun hold => hemitter (List.mem_cons_of_mem _ hold)) hconsumer
  | consumerDestroyed consumer =>
    simp only [event, Option.ite_none_left_eq_some, Option.some.injEq] at hevent
    obtain ⟨-, rfl⟩ := hevent
    intro p hp q hq hname hemitter hconsumer
    exact h p hp q hq hname hemitter fun hold => hconsumer (List.mem_cons_of_mem _ hold)

/-- In a call of the run the one of the two was registered while the other was. -/
def Met (events : List ObjectEvent) (p : IEventEmitter × IEventConsumer) : Prop :=
  ∃ before c rest world, events = before ++ .call c :: rest ∧
    after event new before = some world ∧ Meets world c p

theorem Met.append {events : List ObjectEvent} {p : IEventEmitter × IEventConsumer}
    (h : Met events p) (more : List ObjectEvent) : Met (events ++ more) p := by
  obtain ⟨before, c, rest, world, rfl, hbefore, hmeets⟩ := h
  exact ⟨before, c, rest ++ more, world, by rw [List.append_assoc, List.cons_append], hbefore,
    hmeets⟩

/-- All connections are between objects that met. -/
theorem met_of_connection {events : List ObjectEvent} {world : EventWorld}
    (h : after event new events = some world) : ∀ p ∈ world.connections, Met events p := by
  induction events using List.reverseRecOn generalizing world with
  | nil =>
    obtain rfl := Option.some.inj h
    intro p hp
    cases hp
  | append_singleton events e ih =>
    obtain ⟨world₀, hworld₀, hevent⟩ := after_concat_eq_some h
    intro p hp
    cases e with
    | call c =>
      simp only [event, Option.ite_none_right_eq_some, Option.some.injEq] at hevent
      obtain ⟨-, rfl⟩ := hevent
      obtain ⟨made, hmade, hmet⟩ := (outcome_step world₀ c).connections
      rw [hmade] at hp
      rcases List.mem_append.mp hp with hp | hp
      · exact (ih hworld₀ p hp).append _
      · exact ⟨events, c, [], world₀, rfl, hworld₀, hmet p hp⟩
    | emitterDestroyed emitter =>
      simp only [event, Option.ite_none_left_eq_some, Option.some.injEq] at hevent
      obtain ⟨-, rfl⟩ := hevent
      exact (ih hworld₀ p hp).append _
    | consumerDestroyed consumer =>
      simp only [event, Option.ite_none_left_eq_some, Option.some.injEq] at hevent
      obtain ⟨-, rfl⟩ := hevent
      exact (ih hworld₀ p hp).append _

theorem mem_emission {world : EventWorld} {emitter : IEventEmitter} {consumer : IEventConsumer} :
    consumer ∈ world.emission emitter ↔ emitter ∉ world.expiredEmitters ∧
      consumer ∉ world.expiredConsumers ∧ (emitter, consumer) ∈ world.connections := by
  unfold emission
  split
  · rename_i hexpired
    simp only [List.not_mem_nil, hexpired, not_true_eq_false, false_and]
  · rename_i halive
    simp only [List.mem_map, List.mem_filter, decide_eq_true_eq, halive, not_false_eq_true,
      true_and]
    constructor
    · rintro ⟨⟨e, c⟩, ⟨hmem, rfl, hexpired⟩, rfl⟩
      exact ⟨hexpired, hmem⟩
    · rintro ⟨hexpired, hmem⟩
      exact ⟨_, ⟨hmem, rfl, hexpired⟩, rfl⟩

end EventWorld

open EventWorld in
/-- At any moment of any run, an event of an emitter reaches each consumer that is registered for a
key of the emitter, and each that it reaches is there and met the emitter in a call that registered
one of them while the other was registered, with the same signature. -/
theorem event_reaches {events : List ObjectEvent} {world : EventWorld}
    (h : after event new events = some world) (emitter : IEventEmitter)
    (consumer : IEventConsumer) :
    (∀ emitterKey consumerKey, (emitterKey, emitter) ∈ world.channel.emitterMap →
        (toLex (consumerKey, emitterKey), consumer) ∈ world.channel.consumerMap →
        emitter ∉ world.expiredEmitters → consumer ∉ world.expiredConsumers →
        consumer ∈ world.emission emitter) ∧
      (consumer ∈ world.emission emitter →
        emitter ∉ world.expiredEmitters ∧ consumer ∉ world.expiredConsumers ∧
          Met events (emitter, consumer)) := by
  have hconnected : world.Connected :=
    Reaches.invariant Connected connected_event (fun _ hp => absurd hp List.not_mem_nil)
      ⟨events, h⟩
  constructor
  · intro emitterKey consumerKey hemitter hconsumer halive halive'
    exact mem_emission.mpr
      ⟨halive, halive', hconnected _ hemitter _ hconsumer rfl halive halive'⟩
  · intro hreached
    obtain ⟨halive, halive', hmem⟩ := mem_emission.mp hreached
    exact ⟨halive, halive', met_of_connection h _ hmem⟩

/-- Two consumers wait for an emitter; one of them is destroyed, and another one comes. -/
def consumersComeAndGo : List ObjectEvent :=
  let consumer (n : Nat) : IEventConsumer := ⟨n, "void()".toList⟩
  [.call (.registerConsumer "a".toList "e".toList (some (consumer 2))),
    .call (.registerConsumer "b".toList "e".toList (some (consumer 3))),
    .call (.registerEmitter "e".toList (some ⟨1, "void()".toList⟩)),
    .consumerDestroyed (consumer 2),
    .call (.registerConsumer "c".toList "e".toList (some (consumer 4)))]

theorem event_reaches_comeAndGo :
    ∃ world, after EventWorld.event EventWorld.new consumersComeAndGo = some world ∧
      world.emission ⟨1, "void()".toList⟩ = [⟨3, "void()".toList⟩, ⟨4, "void()".toList⟩] ∧
      EventWorld.Met consumersComeAndGo (⟨1, "void()".toList⟩, ⟨4, "void()".toList⟩) := by
  have hshows : (after EventWorld.event EventWorld.new consumersComeAndGo).map
      (fun world => world.emission ⟨1, "void()".toList⟩) =
        some [⟨3, "void()".toList⟩, ⟨4, "void()".toList⟩] := by decide +kernel
  obtain ⟨world, hworld, hemission⟩ := Option.map_eq_some_iff.mp hshows
  have hreached : (⟨4, "void()".toList⟩ : IEventConsumer) ∈
      world.emission ⟨1, "void()".toList⟩ := by
    rw [hemission]
    decide
  exact ⟨world, hworld, hemission, ((event_reaches hworld _ _).2 hreached).2.2⟩

end Azulejo
