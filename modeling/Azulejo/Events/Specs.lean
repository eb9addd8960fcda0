import Azulejo.Events.EventChannel

/-!
# What the calls of a channel do

One lemma for each operation where it does something, and one for each where it throws before it
has changed anything.
-/

namespace Azulejo

open AssocList Stateful EventChannel

namespace EventChannel

theorem isEmitterRegistered_iff {channel : EventChannel} {emitterKey : Key} :
    channel.isEmitterRegistered emitterKey = true ↔ emitterKey ∈ keys channel.emitterMap := by
  unfold isEmitterRegistered
  rw [Option.isSome_iff_ne_none, ne_eq, lookup_none, not_not]

theorem isConsumerRegistered_iff {channel : EventChannel} {consumerKey emitterKey : Key} :
    channel.isConsumerRegistered consumerKey emitterKey = true ↔
      toLex (consumerKey, emitterKey) ∈ keys channel.consumerMap := by
  unfold isConsumerRegistered
  rw [Option.isSome_iff_ne_none, ne_eq, lookup_none, not_not]

/-- The connections that `RegisterEmitter` makes. -/
def newConsumers (emitterKey : Key) (emitter : IEventEmitter)
    (consumerMap : List ((Key ×ₗ Key) × IEventConsumer)) :
    List (IEventEmitter × IEventConsumer) :=
  (consumerMap.filter fun p => (ofLex p.1).2 = emitterKey).map fun p => (emitter, p.2)

/-- The connections that `RegisterConsumer` makes. -/
def newEmitters (emitterKey : Key) (consumer : IEventConsumer)
    (emitterMap : List (Key × IEventEmitter)) : List (IEventEmitter × IEventConsumer) :=
  (emitterMap.filter fun p => p.1 = emitterKey).map fun p => (p.2, consumer)

theorem connect_run {emitter : IEventEmitter} {subscriber : IEventConsumer}
    (h : subscriber.subscriberType = emitter.subscriberType) (world : EventWorld) :
    (emitter.connect subscriber).run world =
      .ok () { world with connections := world.connections ++ [(emitter, subscriber)] } := by
  unfold IEventEmitter.connect
  rw [if_neg (not_not.mpr h)]
  rfl

/-- A subscriber with another signature is refused before anything is connected. -/
theorem connect_mismatch {emitter : IEventEmitter} {subscriber : IEventConsumer}
    (h : subscriber.subscriberType ≠ emitter.subscriberType) (world : EventWorld) :
    ∃ e, (emitter.connect subscriber).run world = .error e world := by
  unfold IEventEmitter.connect
  rw [if_pos h]
  exact ⟨_, rfl⟩

/-! ## The loop over the consumers -/

/-- The consumers that the loop of `RegisterEmitter` visits: registered for the key and still
there, in the order of the map. -/
def waitingConsumers (emitterKey : Key) (expired : List IEventConsumer)
    (consumerMap : List ((Key ×ₗ Key) × IEventConsumer)) : List IEventConsumer :=
  (consumerMap.filter fun p => (ofLex p.1).2 = emitterKey ∧ p.2 ∉ expired).map Prod.snd

/-- One `Connect` after the other. -/
def connectEach (emitter : IEventEmitter) : List IEventConsumer → EStateM Exception EventWorld Unit
  | [] => pure ()
  | consumer :: rest => do
    emitter.connect consumer
    connectEach emitter rest

theorem connectEach_cons_run {emitter : IEventEmitter} {consumer : IEventConsumer}
    (h : consumer.subscriberType = emitter.subscriberType) (rest : List IEventConsumer)
    (world : EventWorld) :
    (connectEach emitter (consumer :: rest)).run world = (connectEach emitter rest).run
      { world with connections := world.connections ++ [(emitter, consumer)] } :=
  bind_ok (connect_run h world)

theorem connectEach_run {emitter : IEventEmitter} {consumers : List IEventConsumer}
    (h : ∀ c ∈ consumers, c.subscriberType = emitter.subscriberType) (world : EventWorld) :
    (connectEach emitter consumers).run world = .ok () { world with
      connections := world.connections ++ consumers.map fun c => (emitter, c) } := by
  induction consumers generalizing world with
  | nil =>
    rw [List.map_nil, List.append_nil]
    rfl
  | cons consumer rest ih =>
    rw [connectEach_cons_run (h consumer List.mem_cons_self),
      ih fun c hc => h c (List.mem_cons_of_mem _ hc), List.map_cons, List.append_assoc,
      List.singleton_append]

/-- At the first subscriber with another signature the loop throws. The connections with those
before it stay. -/
theorem connectEach_mismatch {emitter : IEventEmitter} {before : List IEventConsumer}
    (hbefore : ∀ c ∈ before, c.subscriberType = emitter.subscriberType)
    {consumer : IEventConsumer} (h : consumer.subscriberType ≠ emitter.subscriberType)
    (after : List IEventConsumer) (world : EventWorld) :
    ∃ e, (connectEach emitter (before ++ consumer :: after)).run world = .error e { world with
      connections := world.connections ++ before.map fun c => (emitter, c) } := by
  induction before generalizing world with
  | nil =>
    obtain ⟨e, he⟩ := connect_mismatch h world
    refine ⟨e, ?_⟩
    rw [List.nil_append, List.map_nil, List.append_nil]
    exact bind_error he
  | cons first before ih =>
    obtain ⟨e, he⟩ := ih (fun c hc => hbefore c (List.mem_cons_of_mem _ hc))
      { world with connections := world.connections ++ [(emitter, first)] }
    refine ⟨e, ?_⟩
    rw [List.cons_append, connectEach_cons_run (hbefore first List.mem_cons_self), he,
      List.map_cons, List.append_assoc, List.singleton_append]

theorem connectConsumers_eq (emitterKey : Key) (emitter : IEventEmitter)
    (l : List ((Key ×ₗ Key) × IEventConsumer)) (world : EventWorld) :
    (connectConsumers emitterKey emitter l).run world =
      (connectEach emitter (waitingConsumers emitterKey world.expiredConsumers l)).run world := by
  induction l generalizing world with
  | nil => rfl
  | cons p l ih =>
    obtain ⟨pair, consumer⟩ := p
    unfold connectConsumers
    rw [bind_ok (EStateM.run_get world)]
    by_cases hvisit : (ofLex pair).2 = emitterKey ∧ consumer ∉ world.expiredConsumers
    · have hwaiting : waitingConsumers emitterKey world.expiredConsumers ((pair, consumer) :: l) =
          consumer :: waitingConsumers emitterKey world.expiredConsumers l := by
        simp only [waitingConsumers, List.filter_cons, hvisit, not_false_eq_true, and_self,
          decide_true, if_true, List.map_cons]
      rw [if_pos hvisit, hwaiting]
      by_cases htype : consumer.subscriberType = emitter.subscriberType
      · rw [bind_ok (connect_run htype world), connectEach_cons_run htype]
        exact ih _
      · obtain ⟨e, he⟩ := connect_mismatch htype world
        exact (bind_error he).trans (bind_error he).symm
    · have hwaiting : waitingConsumers emitterKey world.expiredConsumers ((pair, consumer) :: l) =
          waitingConsumers emitterKey world.expiredConsumers l := by
        simp only [waitingConsumers, List.filter_cons, hvisit, decide_false, Bool.false_eq_true,
          if_false]
      rw [if_neg hvisit, hwaiting]
      exact ih world

theorem connectConsumers_run {emitterKey : Key} {emitter : IEventEmitter} {world : EventWorld}
    (halive : world.expiredConsumers = []) {l : List ((Key ×ₗ Key) × IEventConsumer)}
    (htype : ∀ p ∈ l, (ofLex p.1).2 = emitterKey → p.2.subscriberType = emitter.subscriberType) :
    (connectConsumers emitterKey emitter l).run world = .ok () { world with
      connections := world.connections ++ newConsumers emitterKey emitter l } := by
  have hwaiting : ∀ c ∈ waitingConsumers emitterKey world.expiredConsumers l,
      c.subscriberType = emitter.subscriberType := by
    intro c hc
    obtain ⟨p, hp, rfl⟩ := List.mem_map.mp hc
    obtain ⟨hmem, hvisit⟩ := List.mem_filter.mp hp
    exact htype p hmem (of_decide_eq_true hvisit).1
  rw [connectConsumers_eq, connectEach_run hwaiting, newConsumers, waitingConsumers, List.map_map,
    halive]
  simp only [List.not_mem_nil, not_false_eq_true, and_true]
  rfl

theorem connectEmitters_run {emitterKey : Key} {consumer : IEventConsumer} {world : EventWorld}
    (halive : world.expiredEmitters = []) {l : List (Key × IEventEmitter)}
    (htype : ∀ p ∈ l, p.1 = emitterKey → consumer.subscriberType = p.2.subscriberType) :
    (connectEmitters emitterKey consumer l).run world = .ok () { world with
      connections := world.connections ++ newEmitters emitterKey consumer l } := by
  induction l generalizing world with
  | nil =>
    simp only [newEmitters, List.filter_nil, List.map_nil, List.append_nil]
    rfl
  | cons p l ih =>
    obtain ⟨name, emitter⟩ := p
    have hrest := fun q hq => htype q (List.mem_cons_of_mem _ hq)
    have hmem : emitter ∉ world.expiredEmitters := by
      rw [halive]
      exact List.not_mem_nil
    unfold connectEmitters
    rw [bind_ok (EStateM.run_get world)]
    by_cases hkey : name = emitterKey
    · rw [if_pos ⟨hkey, hmem⟩, bind_ok (connect_run (htype _ List.mem_cons_self hkey) world)]
      show (connectEmitters emitterKey consumer l).run _ = _
      rw [ih ?_ hrest]
      · simp only [newEmitters, List.filter_cons, hkey, decide_true, if_true, List.map_cons,
          List.append_assoc, List.singleton_append]
      · exact halive
    · rw [if_neg (fun h => hkey h.1)]
      show (connectEmitters emitterKey consumer l).run world = _
      rw [ih halive hrest]
      simp only [newEmitters, List.filter_cons, hkey, decide_false, Bool.false_eq_true, if_false]

end EventChannel

/-! ## The four changes -/

namespace EventWorld

/-- The new emitter is connected with the consumers that wait for its key. -/
def withEmitter (world : EventWorld) (emitterKey : Key) (emitter : IEventEmitter) : EventWorld :=
  { world with
    channel := { world.channel with
      emitterMap := insertSorted emitterKey emitter world.channel.emitterMap }
    connections := world.connections ++
      EventChannel.newConsumers emitterKey emitter world.channel.consumerMap }

/-- The new consumer is connected with the emitter of its key. -/
def withConsumer (world : EventWorld) (consumerKey emitterKey : Key)
    (consumer : IEventConsumer) : EventWorld :=
  { world with
    channel := { world.channel with
      consumerMap :=
        insertSorted (toLex (consumerKey, emitterKey)) consumer world.channel.consumerMap }
    connections := world.connections ++
      EventChannel.newEmitters emitterKey consumer world.channel.emitterMap }

/-- The connections of the emitter stay. -/
def withoutEmitter (world : EventWorld) (emitterKey : Key) : EventWorld :=
  { world with
    channel := { world.channel with
      emitterMap := world.channel.emitterMap.filter fun p => p.1 ≠ emitterKey } }

/-- The connections of the consumer stay. -/
def withoutConsumer (world : EventWorld) (consumerKey emitterKey : Key) : EventWorld :=
  { world with
    channel := { world.channel with
      consumerMap := world.channel.consumerMap.filter fun p =>
        p.1 ≠ toLex (consumerKey, emitterKey) } }

end EventWorld

namespace EventChannel

/-! ## Registering -/

/-- A registration that is not refused at the start is the loop, and then the entry. -/
theorem registerEmitter_not_refused {emitterKey : Key} {world : EventWorld}
    (hkey : emitterKey ≠ []) (hnew : emitterKey ∉ keys world.channel.emitterMap)
    (emitter : IEventEmitter) :
    (registerEmitter emitterKey (some emitter)).run world =
      (do connectConsumers emitterKey emitter world.channel.consumerMap
          modify fun world => { world with
            channel := { world.channel with
              emitterMap := insertSorted emitterKey emitter world.channel.emitterMap } } :
        EStateM Exception EventWorld Unit).run world := by
  have hregistered : ¬ world.channel.isEmitterRegistered emitterKey = true :=
    fun h => hnew (isEmitterRegistered_iff.mp h)
  unfold registerEmitter
  rw [if_neg hkey]
  simp only
  rw [bind_ok (EStateM.run_get world), if_neg hregistered]

theorem registerEmitter_run {emitterKey : Key} {emitter : IEventEmitter} {world : EventWorld}
    (hkey : emitterKey ≠ []) (hnew : emitterKey ∉ keys world.channel.emitterMap)
    (halive : world.expiredConsumers = [])
    (htype : ∀ p ∈ world.channel.consumerMap, (ofLex p.1).2 = emitterKey →
      p.2.subscriberType = emitter.subscriberType) :
    (registerEmitter emitterKey (some emitter)).run world =
      .ok () (world.withEmitter emitterKey emitter) := by
  rw [registerEmitter_not_refused hkey hnew, bind_ok (connectConsumers_run halive htype)]
  rfl

theorem registerConsumer_not_refused {consumerKey emitterKey : Key} {world : EventWorld}
    (hconsumerKey : consumerKey ≠ []) (hemitterKey : emitterKey ≠ [])
    (hnew : toLex (consumerKey, emitterKey) ∉ keys world.channel.consumerMap)
    (consumer : IEventConsumer) :
    (registerConsumer consumerKey emitterKey (some consumer)).run world =
      (do connectEmitters emitterKey consumer world.channel.emitterMap
          modify fun world => { world with
            channel := { world.channel with
              consumerMap :=
                insertSorted (toLex (consumerKey, emitterKey)) consumer
                  world.channel.consumerMap } } :
        EStateM Exception EventWorld Unit).run world := by
  have hregistered : ¬ world.channel.isConsumerRegistered consumerKey emitterKey = true :=
    fun h => hnew (isConsumerRegistered_iff.mp h)
  unfold registerConsumer
  rw [if_neg (not_or.mpr ⟨hconsumerKey, hemitterKey⟩)]
  simp only
  rw [bind_ok (EStateM.run_get world), if_neg hregistered]

theorem registerConsumer_run {consumerKey emitterKey : Key} {consumer : IEventConsumer}
    {world : EventWorld} (hconsumerKey : consumerKey ≠ []) (hemitterKey : emitterKey ≠ [])
    (hnew : toLex (consumerKey, emitterKey) ∉ keys world.channel.consumerMap)
    (halive : world.expiredEmitters = [])
    (htype : ∀ p ∈ world.channel.emitterMap, p.1 = emitterKey →
      consumer.subscriberType = p.2.subscriberType) :
    (registerConsumer consumerKey emitterKey (some consumer)).run world =
      .ok () (world.withConsumer consumerKey emitterKey consumer) := by
  have hregistered : ¬ world.channel.isConsumerRegistered consumerKey emitterKey = true :=
    fun h => hnew (isConsumerRegistered_iff.mp h)
  unfold registerConsumer
  rw [if_neg (not_or.mpr ⟨hconsumerKey, hemitterKey⟩)]
  simp only
  rw [bind_ok (EStateM.run_get world), if_neg hregistered,
    bind_ok (connectEmitters_run halive htype)]
  rfl

/-- A registration that is refused at the start changes nothing. -/
theorem registerEmitter_refused {emitterKey : Key} {emitter : Option IEventEmitter}
    {world : EventWorld}
    (h : emitterKey = [] ∨ emitter = none ∨ emitterKey ∈ keys world.channel.emitterMap) :
    ∃ e, (registerEmitter emitterKey emitter).run world = .error e world := by
  unfold registerEmitter
  split
  · exact ⟨_, rfl⟩
  · cases emitter with
    | none => exact ⟨_, rfl⟩
    | some emitter =>
      have hregistered : world.channel.isEmitterRegistered emitterKey = true := by
        rw [isEmitterRegistered_iff]
        tauto
      simp only
      rw [bind_ok (EStateM.run_get world), if_pos hregistered]
      exact ⟨_, rfl⟩

theorem registerConsumer_refused {consumerKey emitterKey : Key}
    {consumer : Option IEventConsumer} {world : EventWorld}
    (h : consumerKey = [] ∨ emitterKey = [] ∨ consumer = none ∨
      toLex (consumerKey, emitterKey) ∈ keys world.channel.consumerMap) :
    ∃ e, (registerConsumer consumerKey emitterKey consumer).run world = .error e world := by
  unfold registerConsumer
  split
  · exact ⟨_, rfl⟩
  · cases consumer with
    | none => exact ⟨_, rfl⟩
    | some consumer =>
      have hregistered : world.channel.isConsumerRegistered consumerKey emitterKey = true := by
        rw [isConsumerRegistered_iff]
        tauto
      simp only
      rw [bind_ok (EStateM.run_get world), if_pos hregistered]
      exact ⟨_, rfl⟩

/-! ## Unregistering -/

theorem unregisterEmitter_run {emitterKey : Key} {world : EventWorld} (hkey : emitterKey ≠ [])
    (hregistered : emitterKey ∈ keys world.channel.emitterMap) :
    (unregisterEmitter emitterKey).run world = .ok () (world.withoutEmitter emitterKey) := by
  unfold unregisterEmitter
  rw [if_neg hkey, bind_ok (EStateM.run_get world), isEmitterRegistered_iff.mpr hregistered]
  rfl

theorem unregisterConsumer_run {consumerKey emitterKey : Key} {world : EventWorld}
    (hconsumerKey : consumerKey ≠ []) (hemitterKey : emitterKey ≠ [])
    (hregistered : toLex (consumerKey, emitterKey) ∈ keys world.channel.consumerMap) :
    (unregisterConsumer consumerKey emitterKey).run world =
      .ok () (world.withoutConsumer consumerKey emitterKey) := by
  unfold unregisterConsumer
  rw [if_neg (not_or.mpr ⟨hconsumerKey, hemitterKey⟩), bind_ok (EStateM.run_get world),
    isConsumerRegistered_iff.mpr hregistered]
  rfl

theorem unregisterEmitter_refused {emitterKey : Key} {world : EventWorld}
    (h : emitterKey = [] ∨ emitterKey ∉ keys world.channel.emitterMap) :
    ∃ e, (unregisterEmitter emitterKey).run world = .error e world := by
  unfold unregisterEmitter
  split
  · exact ⟨_, rfl⟩
  · have hregistered : world.channel.isEmitterRegistered emitterKey = false := by
      rw [Bool.eq_false_iff, ne_eq, isEmitterRegistered_iff]
      tauto
    rw [bind_ok (EStateM.run_get world), hregistered]
    exact ⟨_, rfl⟩

theorem unregisterConsumer_refused {consumerKey emitterKey : Key} {world : EventWorld}
    (h : consumerKey = [] ∨ emitterKey = [] ∨
      toLex (consumerKey, emitterKey) ∉ keys world.channel.consumerMap) :
    ∃ e, (unregisterConsumer consumerKey emitterKey).run world = .error e world := by
  unfold unregisterConsumer
  split
  · exact ⟨_, rfl⟩
  · have hregistered : world.channel.isConsumerRegistered consumerKey emitterKey = false := by
      rw [Bool.eq_false_iff, ne_eq, isConsumerRegistered_iff]
      tauto
    rw [bind_ok (EStateM.run_get world), hregistered]
    exact ⟨_, rfl⟩

end EventChannel

/-! ## A call -/

namespace EventWorld

/-- The calls that change something, and what they change. -/
inductive Changes (world : EventWorld) : ChannelCall → EventWorld → Prop
  | registerEmitter {emitterKey : Key} {emitter : IEventEmitter} (hkey : emitterKey ≠ [])
      (hnew : emitterKey ∉ keys world.channel.emitterMap) :
      Changes world (.registerEmitter emitterKey (some emitter))
        (world.withEmitter emitterKey emitter)
  | unregisterEmitter {emitterKey : Key} (hkey : emitterKey ≠ [])
      (hold : emitterKey ∈ keys world.channel.emitterMap) :
      Changes world (.unregisterEmitter emitterKey) (world.withoutEmitter emitterKey)
  | registerConsumer {consumerKey emitterKey : Key} {consumer : IEventConsumer}
      (hconsumerKey : consumerKey ≠ []) (hemitterKey : emitterKey ≠ [])
      (hnew : toLex (consumerKey, emitterKey) ∉ keys world.channel.consumerMap) :
      Changes world (.registerConsumer consumerKey emitterKey (some consumer))
        (world.withConsumer consumerKey emitterKey consumer)
  | unregisterConsumer {consumerKey emitterKey : Key} (hconsumerKey : consumerKey ≠ [])
      (hemitterKey : emitterKey ≠ [])
      (hold : toLex (consumerKey, emitterKey) ∈ keys world.channel.consumerMap) :
      Changes world (.unregisterConsumer consumerKey emitterKey)
        (world.withoutConsumer consumerKey emitterKey)

/-- What a call would connect has matching signatures. -/
def TypesMatch (world : EventWorld) : ChannelCall → Prop
  | .registerEmitter emitterKey (some emitter) =>
    ∀ p ∈ world.channel.consumerMap, (ofLex p.1).2 = emitterKey →
      p.2.subscriberType = emitter.subscriberType
  | .registerConsumer _ emitterKey (some consumer) =>
    ∀ p ∈ world.channel.emitterMap, p.1 = emitterKey →
      consumer.subscriberType = p.2.subscriberType
  | _ => True

theorem run_of_changes {world world' : EventWorld} {c : ChannelCall}
    (halive : world.expiredEmitters = [] ∧ world.expiredConsumers = [])
    (htypes : TypesMatch world c) (h : Changes world c world') :
    (call c).run world = .ok () world' := by
  cases h with
  | registerEmitter hkey hnew => exact registerEmitter_run hkey hnew halive.2 htypes
  | unregisterEmitter hkey hold => exact unregisterEmitter_run hkey hold
  | registerConsumer hconsumerKey hemitterKey hnew =>
    exact registerConsumer_run hconsumerKey hemitterKey hnew halive.1 htypes
  | unregisterConsumer hconsumerKey hemitterKey hold =>
    exact unregisterConsumer_run hconsumerKey hemitterKey hold

/-- A call that changes nothing throws. -/
theorem refused_of_not_changes {world : EventWorld} {c : ChannelCall}
    (h : ∀ world', ¬ Changes world c world') : ∃ e, (call c).run world = .error e world := by
  cases c with
  | registerEmitter emitterKey emitter =>
    apply registerEmitter_refused
    by_contra hgood
    rw [not_or, not_or] at hgood
    obtain ⟨hkey, hemitter, hnew⟩ := hgood
    obtain ⟨emitter, rfl⟩ := Option.ne_none_iff_exists'.mp hemitter
    exact h _ (.registerEmitter hkey hnew)
  | unregisterEmitter emitterKey =>
    apply unregisterEmitter_refused
    by_contra hgood
    rw [not_or, not_not] at hgood
    exact h _ (.unregisterEmitter hgood.1 hgood.2)
  | registerConsumer consumerKey emitterKey consumer =>
    apply registerConsumer_refused
    by_contra hgood
    rw [not_or, not_or, not_or] at hgood
    obtain ⟨hconsumerKey, hemitterKey, hconsumer, hnew⟩ := hgood
    obtain ⟨consumer, rfl⟩ := Option.ne_none_iff_exists'.mp hconsumer
    exact h _ (.registerConsumer hconsumerKey hemitterKey hnew)
  | unregisterConsumer consumerKey emitterKey =>
    apply unregisterConsumer_refused
    by_contra hgood
    rw [not_or, not_or, not_not] at hgood
    exact h _ (.unregisterConsumer hgood.1 hgood.2.1 hgood.2.2)

/-- A call makes one of the changes, or throws and changes nothing. -/
theorem step_cases {world : EventWorld} {c : ChannelCall}
    (halive : world.expiredEmitters = [] ∧ world.expiredConsumers = [])
    (htypes : TypesMatch world c) :
    Changes world c (step world c) ∨
      (∀ world', ¬ Changes world c world') ∧ step world c = world := by
  by_cases h : ∃ world', Changes world c world'
  · obtain ⟨world', hchanges⟩ := h
    have hstep : step world c = world' := by
      unfold step
      rw [run_of_changes halive htypes hchanges]
      rfl
    rw [hstep]
    exact Or.inl hchanges
  · have hnone := not_exists.mp h
    obtain ⟨e, he⟩ := refused_of_not_changes hnone
    refine Or.inr ⟨hnone, ?_⟩
    unfold step
    rw [he]
    rfl

end EventWorld

end Azulejo
