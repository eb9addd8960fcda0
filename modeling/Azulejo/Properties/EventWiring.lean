import Azulejo.Events.Specs

/-!
# The wiring of a channel

The two maps say which emitter should be connected with which consumer, and how often. A
registration adds exactly the connections that it asks for. Unregistering takes an entry out of a
map and leaves its connections, so the wiring stays right only as long as nothing is unregistered
that is connected.
-/

namespace Azulejo

open AssocList Stateful EventChannel

namespace EventWorld

/-- The entries of `consumerMap_` for `consumer` whose emitter key is that of `emitter`. -/
def entryCount (world : EventWorld) (emitter : IEventEmitter) (consumer : IEventConsumer) : Nat :=
  world.channel.consumerMap.countP fun p =>
    p.2 = consumer ∧ List.lookup (ofLex p.1).2 world.channel.emitterMap = some emitter

/-- There are as many connections from an emitter to a consumer as the maps ask for. -/
def Wired (world : EventWorld) : Prop :=
  ∀ emitter consumer,
    world.connections.count (emitter, consumer) = world.entryCount emitter consumer

/-! ## Counting -/

/-- A new emitter is asked for by the consumers that wait for its key. -/
theorem countP_register_emitter {emitterKey : Key} {emitter : IEventEmitter}
    {emitterMap : List (Key × IEventEmitter)} (hnew : emitterKey ∉ keys emitterMap)
    (l : List ((Key ×ₗ Key) × IEventConsumer)) (e : IEventEmitter) (c : IEventConsumer) :
    (l.countP fun p => p.2 = c ∧
        List.lookup (ofLex p.1).2 (insertSorted emitterKey emitter emitterMap) = some e) =
      (l.countP fun p => p.2 = c ∧ List.lookup (ofLex p.1).2 emitterMap = some e) +
        (newConsumers emitterKey emitter l).count (e, c) := by
  induction l with
  | nil => rfl
  | cons p l ih =>
    obtain ⟨pair, consumer⟩ := p
    simp only [newConsumers] at ih
    by_cases hkey : (ofLex pair).2 = emitterKey
    · have hnone : List.lookup emitterKey emitterMap = none := lookup_none.mpr hnew
      have hhead : decide (consumer = c ∧ some emitter = some e) =
          ((emitter, consumer) == (e, c)) := by
        rw [Bool.eq_iff_iff]
        simp only [decide_eq_true_eq, beq_iff_eq, Prod.mk.injEq, Option.some.injEq]
        exact and_comm
      simp only [newConsumers, List.countP_cons, List.filter_cons, List.map_cons, List.count_cons,
        hkey, hnone, lookup_insertSorted_self, ih, hhead, decide_true, if_true, reduceCtorEq,
        and_false, decide_false, Bool.false_eq_true, if_false]
      omega
    · simp only [newConsumers, List.countP_cons, List.filter_cons, hkey,
        lookup_insertSorted_ne hkey, ih, decide_false, Bool.false_eq_true, if_false]
      omega

/-- A new consumer is connected with the emitter that its key has, if any. -/
theorem newEmitters_eq {emitterKey : Key} (consumer : IEventConsumer)
    {emitterMap : List (Key × IEventEmitter)} (hnodup : (keys emitterMap).Nodup) :
    newEmitters emitterKey consumer emitterMap =
      ((List.lookup emitterKey emitterMap).map fun e => (e, consumer)).toList := by
  induction emitterMap with
  | nil => rfl
  | cons p l ih =>
    obtain ⟨name, emitter⟩ := p
    rw [keys_cons, List.nodup_cons] at hnodup
    have hrest := ih hnodup.2
    simp only [newEmitters] at hrest ⊢
    by_cases hkey : name = emitterKey
    · subst hkey
      have hnone : List.lookup name l = none := lookup_none.mpr hnodup.1
      rw [hnone] at hrest
      simp only [List.filter_cons, decide_true, if_true, List.map_cons, hrest, lookup_cons_self,
        Option.map_some, Option.map_none, Option.toList_some, Option.toList_none]
    · simp only [List.filter_cons, hkey, decide_false, Bool.false_eq_true, if_false, hrest,
        lookup_cons_ne hkey]

theorem count_newEmitter (found : Option IEventEmitter) (consumer : IEventConsumer)
    (e : IEventEmitter) (c : IEventConsumer) :
    ((found.map fun emitter => (emitter, consumer)).toList).count (e, c) =
      if consumer = c ∧ found = some e then 1 else 0 := by
  cases found with
  | none => simp only [Option.map_none, Option.toList_none, List.count_nil, reduceCtorEq,
      and_false, if_false]
  | some emitter =>
    simp only [Option.map_some, Option.toList_some, List.count_cons, List.count_nil, Nat.zero_add,
      beq_iff_eq, Prod.mk.injEq, Option.some.injEq]
    exact if_congr and_comm rfl rfl

/-! ## What is registered -/

/-- The emitters and consumers that the calls register under one emitter key have the same
signature. -/
def Compatible (calls : List ChannelCall) : Prop :=
  ∀ emitterKey emitter consumerKey consumer,
    .registerEmitter emitterKey (some emitter) ∈ calls →
      .registerConsumer consumerKey emitterKey (some consumer) ∈ calls →
        consumer.subscriberType = emitter.subscriberType

/-- The maps hold what `calls` register, and nothing was destroyed. -/
structure Registered (calls : List ChannelCall) (world : EventWorld) : Prop where
  emitterKeys : (keys world.channel.emitterMap).Nodup
  consumerKeys : (keys world.channel.consumerMap).Nodup
  emitters : ∀ p ∈ world.channel.emitterMap,
    p.1 ≠ [] ∧ .registerEmitter p.1 (some p.2) ∈ calls
  consumers : ∀ p ∈ world.channel.consumerMap, (ofLex p.1).1 ≠ [] ∧ (ofLex p.1).2 ≠ [] ∧
    .registerConsumer (ofLex p.1).1 (ofLex p.1).2 (some p.2) ∈ calls
  alive : world.expiredEmitters = [] ∧ world.expiredConsumers = []

theorem registered_new (calls : List ChannelCall) : Registered calls new :=
  ⟨List.nodup_nil, List.nodup_nil, fun _ h => absurd h List.not_mem_nil,
    fun _ h => absurd h List.not_mem_nil, rfl, rfl⟩

theorem Registered.typesMatch {calls : List ChannelCall} {world : EventWorld}
    (h : Registered calls world) (hcompatible : Compatible calls) {c : ChannelCall}
    (hc : c ∈ calls) : TypesMatch world c := by
  cases c with
  | registerEmitter emitterKey emitter =>
    cases emitter with
    | none => trivial
    | some emitter =>
      rintro p hp rfl
      exact hcompatible _ _ _ _ hc (h.consumers p hp).2.2
  | registerConsumer consumerKey emitterKey consumer =>
    cases consumer with
    | none => trivial
    | some consumer =>
      rintro p hp rfl
      exact hcompatible _ _ _ _ (h.emitters p hp).2 hc
  | unregisterEmitter emitterKey => trivial
  | unregisterConsumer consumerKey emitterKey => trivial

theorem nodup_keys_insertSorted {κ ν : Type} [LinearOrder κ] {k : κ} {l : List (κ × ν)}
    (hnew : k ∉ keys l) (h : (keys l).Nodup) (v : ν) : (keys (insertSorted k v l)).Nodup := by
  have hperm : (keys (insertSorted k v l)).Perm (k :: keys l) :=
    (insertSorted_perm hnew v).map Prod.fst
  rw [hperm.nodup_iff, List.nodup_cons]
  exact ⟨hnew, h⟩

theorem nodup_keys_filter {κ ν : Type} {p : κ × ν → Bool} {l : List (κ × ν)}
    (h : (keys l).Nodup) : (keys (l.filter p)).Nodup :=
  h.sublist (List.filter_sublist.map Prod.fst)

theorem Registered.changes {calls : List ChannelCall} {world world' : EventWorld}
    (h : Registered calls world) {c : ChannelCall} (hc : c ∈ calls)
    (hchanges : Changes world c world') : Registered calls world' := by
  cases hchanges with
  | registerEmitter hkey hnew =>
    refine ⟨nodup_keys_insertSorted hnew h.emitterKeys _, h.consumerKeys, ?_, h.consumers,
      h.alive⟩
    intro p hp
    rcases List.mem_cons.mp ((insertSorted_perm hnew _).subset hp) with rfl | hp
    · exact ⟨hkey, hc⟩
    · exact h.emitters p hp
  | unregisterEmitter hkey hold =>
    exact ⟨nodup_keys_filter h.emitterKeys, h.consumerKeys,
      fun p hp => h.emitters p (List.mem_of_mem_filter hp), h.consumers, h.alive⟩
  | registerConsumer hconsumerKey hemitterKey hnew =>
    refine ⟨h.emitterKeys, nodup_keys_insertSorted hnew h.consumerKeys _, h.emitters, ?_,
      h.alive⟩
    intro p hp
    rcases List.mem_cons.mp ((insertSorted_perm hnew _).subset hp) with rfl | hp
    · exact ⟨hconsumerKey, hemitterKey, hc⟩
    · exact h.consumers p hp
  | unregisterConsumer hconsumerKey hemitterKey hold =>
    exact ⟨h.emitterKeys, nodup_keys_filter h.consumerKeys, h.emitters,
      fun p hp => h.consumers p (List.mem_of_mem_filter hp), h.alive⟩

/-! ## One call -/

/-- Nothing is unregistered that is connected. -/
def LeavesNoConnection (world : EventWorld) : ChannelCall → Prop
  | .unregisterEmitter emitterKey =>
    emitterKey ∈ keys world.channel.emitterMap →
      ∀ p ∈ world.channel.consumerMap, (ofLex p.1).2 ≠ emitterKey
  | .unregisterConsumer consumerKey emitterKey =>
    toLex (consumerKey, emitterKey) ∈ keys world.channel.consumerMap →
      emitterKey ∉ keys world.channel.emitterMap
  | _ => True

theorem wired_withEmitter {world : EventWorld} {emitterKey : Key} {emitter : IEventEmitter}
    (hnew : emitterKey ∉ keys world.channel.emitterMap) (h : Wired world) :
    Wired (world.withEmitter emitterKey emitter) := by
  intro e c
  simp only [withEmitter, entryCount, List.count_append, h e c]
  exact (countP_register_emitter hnew world.channel.consumerMap e c).symm

theorem wired_withConsumer {calls : List ChannelCall} {world : EventWorld}
    {consumerKey emitterKey : Key} {consumer : IEventConsumer} (hregistered : Registered calls world)
    (hnew : toLex (consumerKey, emitterKey) ∉ keys world.channel.consumerMap) (h : Wired world) :
    Wired (world.withConsumer consumerKey emitterKey consumer) := by
  intro e c
  simp only [withConsumer, entryCount, List.count_append, h e c,
    (insertSorted_perm hnew consumer).countP_eq, List.countP_cons,
    newEmitters_eq consumer hregistered.emitterKeys, ofLex_toLex, count_newEmitter]
  exact congrArg _ (if_congr decide_eq_true_iff.symm rfl rfl)

/-- Without consumers for it, an emitter is asked for by nobody. -/
theorem wired_withoutEmitter {world : EventWorld} {emitterKey : Key}
    (hfree : ∀ p ∈ world.channel.consumerMap, (ofLex p.1).2 ≠ emitterKey) (h : Wired world) :
    Wired (world.withoutEmitter emitterKey) := by
  intro e c
  show world.connections.count (e, c) = _
  rw [h e c]
  apply List.countP_congr
  intro p hp
  simp only [withoutEmitter, lookup_filter_ne (hfree p hp)]

theorem wired_withoutConsumer {world : EventWorld} {consumerKey emitterKey : Key}
    (hfree : emitterKey ∉ keys world.channel.emitterMap) (h : Wired world) :
    Wired (world.withoutConsumer consumerKey emitterKey) := by
  intro e c
  show world.connections.count (e, c) = _
  rw [h e c]
  simp only [withoutConsumer, entryCount, List.countP_filter]
  apply List.countP_congr
  intro p hp
  rw [Bool.and_eq_true]
  constructor
  · intro hentry
    refine ⟨hentry, ?_⟩
    have hfound := lookup_some_mem_keys (of_decide_eq_true hentry).2
    rw [decide_eq_true_eq]
    rintro heq
    rw [heq] at hfound
    exact hfree hfound
  · exact fun hentry => hentry.1

theorem lookup_of_mem_keys {κ ν : Type} [BEq κ] [LawfulBEq κ] {k : κ} {l : List (κ × ν)}
    (h : k ∈ keys l) : ∃ v, List.lookup k l = some v := by
  apply Option.ne_none_iff_exists'.mp
  intro hnone
  exact lookup_none.mp hnone h

/-- The connections of an emitter that had a consumer outlive its entry. -/
theorem not_wired_withoutEmitter {world : EventWorld} {emitterKey : Key}
    (hold : emitterKey ∈ keys world.channel.emitterMap)
    {p : (Key ×ₗ Key) × IEventConsumer} (hp : p ∈ world.channel.consumerMap)
    (hkey : (ofLex p.1).2 = emitterKey) (h : Wired world) :
    ¬ Wired (world.withoutEmitter emitterKey) := by
  intro hafter
  obtain ⟨emitter, hemitter⟩ := lookup_of_mem_keys hold
  have hcount : world.entryCount emitter p.2 =
      (world.withoutEmitter emitterKey).entryCount emitter p.2 := by
    rw [← h, ← hafter]
    rfl
  have hless : (world.withoutEmitter emitterKey).entryCount emitter p.2 <
      world.entryCount emitter p.2 := by
    apply countP_lt_countP (x := p) _ hp
    · rw [decide_eq_true_eq, hkey]
      exact ⟨rfl, hemitter⟩
    · simp only [withoutEmitter, hkey, lookup_filter_self, reduceCtorEq, and_false, decide_false]
    · intro q _ hq
      rw [decide_eq_true_eq] at hq ⊢
      refine ⟨hq.1, ?_⟩
      by_cases hqkey : (ofLex q.1).2 = emitterKey
      · have hnone := hq.2
        simp only [withoutEmitter, hqkey, lookup_filter_self, reduceCtorEq] at hnone
      · have hsome := hq.2
        simp only [withoutEmitter] at hsome
        rwa [lookup_filter_ne hqkey] at hsome
  omega

/-- The connection of a consumer that had an emitter outlives its entry. -/
theorem not_wired_withoutConsumer {world : EventWorld} {consumerKey emitterKey : Key}
    (hold : toLex (consumerKey, emitterKey) ∈ keys world.channel.consumerMap)
    (hkey : emitterKey ∈ keys world.channel.emitterMap) (h : Wired world) :
    ¬ Wired (world.withoutConsumer consumerKey emitterKey) := by
  intro hafter
  obtain ⟨emitter, hemitter⟩ := lookup_of_mem_keys hkey
  obtain ⟨p, hp, hpair⟩ := List.mem_map.mp hold
  have hcount : world.entryCount emitter p.2 =
      (world.withoutConsumer consumerKey emitterKey).entryCount emitter p.2 := by
    rw [← h, ← hafter]
    rfl
  have hless : (world.withoutConsumer consumerKey emitterKey).entryCount emitter p.2 <
      world.entryCount emitter p.2 := by
    simp only [withoutConsumer, entryCount, List.countP_filter]
    apply countP_lt_countP (x := p) _ hp
    · rw [decide_eq_true_eq, hpair, ofLex_toLex]
      exact ⟨rfl, hemitter⟩
    · rw [Bool.and_eq_false_iff]
      exact Or.inr (by rw [hpair]; exact decide_eq_false (fun hne => hne rfl))
    · intro q _ hq
      exact (Bool.and_eq_true_iff.mp hq).1
  omega

theorem wired_changes_iff {calls : List ChannelCall} {world world' : EventWorld}
    (hregistered : Registered calls world) (h : Wired world) {c : ChannelCall}
    (hchanges : Changes world c world') : Wired world' ↔ LeavesNoConnection world c := by
  cases hchanges with
  | registerEmitter hkey hnew => exact iff_of_true (wired_withEmitter hnew h) trivial
  | registerConsumer hconsumerKey hemitterKey hnew =>
    exact iff_of_true (wired_withConsumer hregistered hnew h) trivial
  | unregisterEmitter hkey hold =>
    constructor
    · intro hafter _ p hp hpkey
      exact not_wired_withoutEmitter hold hp hpkey h hafter
    · exact fun hleaves => wired_withoutEmitter (hleaves hold) h
  | unregisterConsumer hconsumerKey hemitterKey hold =>
    constructor
    · intro hafter _ hkey
      exact not_wired_withoutConsumer hold hkey h hafter
    · exact fun hleaves => wired_withoutConsumer (hleaves hold) h

/-- A call that throws leaves no connection behind. -/
theorem leavesNoConnection_of_not_changes {calls : List ChannelCall} {world : EventWorld}
    (hregistered : Registered calls world) {c : ChannelCall}
    (h : ∀ world', ¬ Changes world c world') : LeavesNoConnection world c := by
  cases c with
  | registerEmitter emitterKey emitter => trivial
  | registerConsumer consumerKey emitterKey consumer => trivial
  | unregisterEmitter emitterKey =>
    intro hold
    obtain ⟨p, hp, rfl⟩ := List.mem_map.mp hold
    exact absurd (.unregisterEmitter (hregistered.emitters p hp).1 hold) (h _)
  | unregisterConsumer consumerKey emitterKey =>
    intro hold
    obtain ⟨p, hp, hpair⟩ := List.mem_map.mp hold
    obtain ⟨hconsumerKey, hemitterKey, -⟩ := hregistered.consumers p hp
    rw [hpair] at hconsumerKey hemitterKey
    exact absurd (.unregisterConsumer hconsumerKey hemitterKey hold) (h _)

theorem step_wired_iff {calls : List ChannelCall} (hcompatible : Compatible calls)
    {world : EventWorld} (hregistered : Registered calls world) (h : Wired world)
    {c : ChannelCall} (hc : c ∈ calls) :
    Registered calls (step world c) ∧ (Wired (step world c) ↔ LeavesNoConnection world c) := by
  rcases step_cases hregistered.alive (hregistered.typesMatch hcompatible hc) with
    hchanges | ⟨hnone, hsame⟩
  · exact ⟨hregistered.changes hc hchanges, wired_changes_iff hregistered h hchanges⟩
  · rw [hsame]
    exact ⟨hregistered, iff_of_true h (leavesNoConnection_of_not_changes hregistered hnone)⟩

/-! ## Runs -/

theorem run_wired_iff {calls : List ChannelCall} (hcompatible : Compatible calls)
    {world : EventWorld} (hregistered : Registered calls world) (h : Wired world)
    {cs : List ChannelCall} (hcs : cs ⊆ calls) :
    (∀ before, before <+: cs → Wired (Runs.run step world before)) ↔
      Runs.Meets step LeavesNoConnection world cs := by
  induction cs generalizing world with
  | nil =>
    refine iff_of_true ?_ trivial
    intro before hbefore
    rw [List.prefix_nil.mp hbefore]
    exact h
  | cons c cs ih =>
    obtain ⟨hc, hrest⟩ := List.cons_subset.mp hcs
    obtain ⟨hregistered', hstep⟩ := step_wired_iff hcompatible hregistered h hc
    constructor
    · intro hall
      have hwired : Wired (step world c) := hall [c] ⟨cs, rfl⟩
      refine ⟨hstep.mp hwired, (ih hregistered' hwired hrest).mp ?_⟩
      intro before hbefore
      exact hall (c :: before) (List.cons_prefix_cons.mpr ⟨rfl, hbefore⟩)
    · rintro ⟨hleaves, hmeets⟩ before hbefore
      cases before with
      | nil => exact h
      | cons d before =>
        obtain ⟨rfl, hprefix⟩ := List.cons_prefix_cons.mp hbefore
        exact (ih hregistered' (hstep.mpr hleaves) hrest).mpr hmeets before hprefix

end EventWorld

open EventWorld in
/-- The connections are what the maps ask for in every state of a run exactly when nothing is
unregistered in it that is connected. -/
theorem event_wiring_iff {calls : List ChannelCall} (hcompatible : Compatible calls) :
    (∀ before, before <+: calls → Wired (Runs.run step new before)) ↔
      Runs.Meets step LeavesNoConnection new calls :=
  run_wired_iff hcompatible (registered_new calls) (fun _ _ => rfl) (List.Subset.refl calls)

/-- A consumer of `void()` is registered, unregistered and registered again. -/
def reRegistration : List ChannelCall :=
  [.registerEmitter "emitter".toList (some ⟨1, "void()".toList⟩),
    .registerConsumer "consumer".toList "emitter".toList (some ⟨2, "void()".toList⟩),
    .unregisterConsumer "consumer".toList "emitter".toList,
    .registerConsumer "consumer".toList "emitter".toList (some ⟨2, "void()".toList⟩)]

theorem reRegistration_compatible : EventWorld.Compatible reRegistration := by
  intro emitterKey emitter consumerKey consumer hemitter hconsumer
  simp only [reRegistration, List.mem_cons, ChannelCall.registerEmitter.injEq, reduceCtorEq,
    Option.some.injEq, List.not_mem_nil, or_false] at hemitter
  simp only [reRegistration, List.mem_cons, ChannelCall.registerConsumer.injEq, reduceCtorEq,
    Option.some.injEq, List.not_mem_nil, or_false, false_or, or_self] at hconsumer
  rw [hemitter.2, hconsumer.2.2]

open EventWorld in
/-- The consumer still gets events after it is unregistered, and gets them twice when it is
registered again. -/
theorem reRegistration_not_wired :
    ¬ Wired (Runs.run step new (reRegistration.take 3)) ∧
      (Runs.run step new reRegistration).connections =
        [(⟨1, "void()".toList⟩, ⟨2, "void()".toList⟩), (⟨1, "void()".toList⟩, ⟨2, "void()".toList⟩)] ∧
      ¬ Wired (Runs.run step new reRegistration) := by
  refine ⟨fun h => ?_, by decide +kernel, fun h => ?_⟩
  · have hcount := h ⟨1, "void()".toList⟩ ⟨2, "void()".toList⟩
    revert hcount
    decide +kernel
  · have hcount := h ⟨1, "void()".toList⟩ ⟨2, "void()".toList⟩
    revert hcount
    decide +kernel

open EventWorld in
theorem event_wiring_iff_reRegistration :
    (∀ before, before <+: reRegistration → Wired (Runs.run step new before)) ↔
      Runs.Meets step LeavesNoConnection new reRegistration :=
  event_wiring_iff reRegistration_compatible

end Azulejo
