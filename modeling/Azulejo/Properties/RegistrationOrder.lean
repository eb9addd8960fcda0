import Azulejo.Properties.EventWiring
import Mathlib.Data.List.Perm.Basic
import Mathlib.Data.List.Induction

/-!
# The order of registrations

A channel in which emitters and consumers are only registered has, in whatever order the calls
come, the connections that the registrations ask for.
-/

namespace Azulejo

open AssocList Stateful EventChannel

namespace EventWorld

/-! ## What is registered -/

/-- The emitters that the calls register. -/
def emittersOf (calls : List ChannelCall) : List (Key × IEventEmitter) :=
  calls.filterMap fun
    | .registerEmitter emitterKey emitter => emitter.map fun e => (emitterKey, e)
    | _ => none

/-- The consumers that the calls register. -/
def consumersOf (calls : List ChannelCall) : List ((Key ×ₗ Key) × IEventConsumer) :=
  calls.filterMap fun
    | .registerConsumer consumerKey emitterKey consumer =>
      consumer.map fun c => (toLex (consumerKey, emitterKey), c)
    | _ => none

theorem emittersOf_append (calls more : List ChannelCall) :
    emittersOf (calls ++ more) = emittersOf calls ++ emittersOf more :=
  List.filterMap_append

theorem consumersOf_append (calls more : List ChannelCall) :
    consumersOf (calls ++ more) = consumersOf calls ++ consumersOf more :=
  List.filterMap_append

theorem emittersOf_perm {calls calls' : List ChannelCall} (hperm : calls.Perm calls') :
    (emittersOf calls).Perm (emittersOf calls') := hperm.filterMap _

theorem consumersOf_perm {calls calls' : List ChannelCall} (hperm : calls.Perm calls') :
    (consumersOf calls).Perm (consumersOf calls') := hperm.filterMap _

/-- A registration with keys. -/
inductive IsRegistration : ChannelCall → Prop
  | emitter {emitterKey : Key} (hkey : emitterKey ≠ []) (emitter : IEventEmitter) :
      IsRegistration (.registerEmitter emitterKey (some emitter))
  | consumer {consumerKey emitterKey : Key} (hconsumerKey : consumerKey ≠ [])
      (hemitterKey : emitterKey ≠ []) (consumer : IEventConsumer) :
      IsRegistration (.registerConsumer consumerKey emitterKey (some consumer))

/-- Registrations of which no two have the same keys. -/
structure Orderly (calls : List ChannelCall) : Prop where
  registrations : ∀ c ∈ calls, IsRegistration c
  emitterKeys : (keys (emittersOf calls)).Nodup
  consumerKeys : (keys (consumersOf calls)).Nodup
  compatible : Compatible calls

theorem Orderly.of_perm {calls calls' : List ChannelCall} (h : Orderly calls)
    (hperm : calls.Perm calls') : Orderly calls' := by
  refine ⟨fun c hc => h.registrations c (hperm.mem_iff.mpr hc), ?_, ?_, ?_⟩
  · exact ((emittersOf_perm hperm).map Prod.fst).nodup_iff.mp h.emitterKeys
  · exact ((consumersOf_perm hperm).map Prod.fst).nodup_iff.mp h.consumerKeys
  · intro emitterKey emitter consumerKey consumer hemitter hconsumer
    exact h.compatible _ _ _ _ (hperm.mem_iff.mpr hemitter) (hperm.mem_iff.mpr hconsumer)

theorem Orderly.left {calls more : List ChannelCall} (h : Orderly (calls ++ more)) :
    Orderly calls := by
  have hemitterKeys := h.emitterKeys
  have hconsumerKeys := h.consumerKeys
  rw [emittersOf_append, keys_append] at hemitterKeys
  rw [consumersOf_append, keys_append] at hconsumerKeys
  refine ⟨fun c hc => h.registrations c (List.mem_append_left _ hc), hemitterKeys.of_append_left,
    hconsumerKeys.of_append_left, ?_⟩
  intro emitterKey emitter consumerKey consumer hemitter hconsumer
  exact h.compatible _ _ _ _ (List.mem_append_left _ hemitter) (List.mem_append_left _ hconsumer)

/-! ## Runs -/

/-- After the calls, both maps hold what they registered, and the wiring is right. -/
structure Built (calls : List ChannelCall) (world : EventWorld) : Prop where
  registered : Registered calls world
  wired : Wired world
  emitters : world.channel.emitterMap.Perm (emittersOf calls)
  consumers : world.channel.consumerMap.Perm (consumersOf calls)

theorem built_new : Built [] new :=
  ⟨registered_new [], fun _ _ => rfl, List.Perm.refl _, List.Perm.refl _⟩

theorem Registered.mono {calls more : List ChannelCall} {world : EventWorld}
    (h : Registered calls world) : Registered (calls ++ more) world := by
  refine ⟨h.emitterKeys, h.consumerKeys, ?_, ?_, h.alive⟩
  · intro p hp
    obtain ⟨hkey, hmem⟩ := h.emitters p hp
    exact ⟨hkey, List.mem_append_left _ hmem⟩
  · intro p hp
    obtain ⟨hconsumerKey, hemitterKey, hmem⟩ := h.consumers p hp
    exact ⟨hconsumerKey, hemitterKey, List.mem_append_left _ hmem⟩

/-- A registration under new keys does what it asks for. -/
theorem built_concat {calls : List ChannelCall} {c : ChannelCall} (h : Orderly (calls ++ [c]))
    {world : EventWorld} (hbuilt : Built calls world) :
    ∃ world', (call c).run world = .ok () world' ∧ Built (calls ++ [c]) world' := by
  have hregistered : Registered (calls ++ [c]) world := hbuilt.registered.mono
  have hmem : c ∈ calls ++ [c] := List.mem_append_right _ List.mem_cons_self
  have htypes := hregistered.typesMatch h.compatible hmem
  have hemitterKeys := h.emitterKeys
  have hconsumerKeys := h.consumerKeys
  rw [emittersOf_append, keys_append] at hemitterKeys
  rw [consumersOf_append, keys_append] at hconsumerKeys
  cases h.registrations c hmem with
  | @emitter emitterKey hkey emitter =>
    have hnew : emitterKey ∉ keys world.channel.emitterMap := by
      rw [keys, (hbuilt.emitters.map Prod.fst).mem_iff]
      intro hold
      exact (List.nodup_append.mp hemitterKeys).2.2 _ hold _ List.mem_cons_self rfl
    have hchanges : Changes world (.registerEmitter emitterKey (some emitter))
        (world.withEmitter emitterKey emitter) := .registerEmitter hkey hnew
    refine ⟨_, run_of_changes hregistered.alive htypes hchanges,
      hregistered.changes hmem hchanges, wired_withEmitter hnew hbuilt.wired, ?_, ?_⟩
    · rw [emittersOf_append]
      exact ((insertSorted_perm hnew emitter).trans (hbuilt.emitters.cons _)).trans
        (List.perm_append_singleton _ _).symm
    · rw [consumersOf_append]
      exact hbuilt.consumers.trans (List.Perm.of_eq (List.append_nil _).symm)
  | @consumer consumerKey emitterKey hconsumerKey hemitterKey consumer =>
    have hnew : toLex (consumerKey, emitterKey) ∉ keys world.channel.consumerMap := by
      rw [keys, (hbuilt.consumers.map Prod.fst).mem_iff]
      intro hold
      exact (List.nodup_append.mp hconsumerKeys).2.2 _ hold _ List.mem_cons_self rfl
    have hchanges : Changes world (.registerConsumer consumerKey emitterKey (some consumer))
        (world.withConsumer consumerKey emitterKey consumer) :=
      .registerConsumer hconsumerKey hemitterKey hnew
    refine ⟨_, run_of_changes hregistered.alive htypes hchanges,
      hregistered.changes hmem hchanges, wired_withConsumer hregistered hnew hbuilt.wired, ?_, ?_⟩
    · rw [emittersOf_append]
      exact hbuilt.emitters.trans (List.Perm.of_eq (List.append_nil _).symm)
    · rw [consumersOf_append]
      exact ((insertSorted_perm hnew consumer).trans (hbuilt.consumers.cons _)).trans
        (List.perm_append_singleton _ _).symm

theorem step_of_run {world world' : EventWorld} {c : ChannelCall}
    (h : (call c).run world = .ok () world') : step world c = world' := by
  unfold step
  rw [h]
  rfl

theorem built_run {calls : List ChannelCall} (h : Orderly calls) :
    Built calls (Runs.run step new calls) := by
  induction calls using List.reverseRecOn with
  | nil => exact built_new
  | append_singleton calls c ih =>
    obtain ⟨world', hrun, hbuilt⟩ := built_concat h (ih h.left)
    rw [Runs.run_append]
    show Built _ (step (Runs.run step new calls) c)
    rw [step_of_run hrun]
    exact hbuilt

/-- No call of the run throws. -/
def NoThrow (calls : List ChannelCall) : Prop :=
  ∀ before c, before ++ [c] <+: calls →
    ∃ world', (call c).run (Runs.run step new before) = .ok () world'

theorem Orderly.noThrow {calls : List ChannelCall} (h : Orderly calls) : NoThrow calls := by
  rintro before c ⟨after, rfl⟩
  obtain ⟨world', hrun, -⟩ := built_concat h.left (built_run h.left.left)
  exact ⟨world', hrun⟩

/-! ## The connections that are asked for -/

/-- One connection for each consumer whose emitter key is registered, to that emitter. -/
def asked (emitters : List (Key × IEventEmitter))
    (consumers : List ((Key ×ₗ Key) × IEventConsumer)) : List (IEventEmitter × IEventConsumer) :=
  consumers.filterMap fun p =>
    (List.lookup (ofLex p.1).2 emitters).map fun emitter => (emitter, p.2)

theorem count_asked (emitters : List (Key × IEventEmitter))
    (consumers : List ((Key ×ₗ Key) × IEventConsumer)) (e : IEventEmitter) (c : IEventConsumer) :
    (asked emitters consumers).count (e, c) =
      consumers.countP fun p => p.2 = c ∧ List.lookup (ofLex p.1).2 emitters = some e := by
  rw [asked, List.count_filterMap]
  apply List.countP_congr
  intro p _
  cases List.lookup (ofLex p.1).2 emitters with
  | none => simp only [Option.map_none, beq_iff_eq, reduceCtorEq, and_false, decide_false,
      Bool.false_eq_true]
  | some emitter =>
    simp only [Option.map_some, beq_iff_eq, Option.some.injEq, Prod.mk.injEq, decide_eq_true_eq]
    exact and_comm

theorem Built.connections {calls : List ChannelCall} {world : EventWorld} (h : Built calls world)
    {emitters : List (Key × IEventEmitter)} {consumers : List ((Key ×ₗ Key) × IEventConsumer)}
    (hemitters : (emittersOf calls).Perm emitters)
    (hconsumers : (consumersOf calls).Perm consumers) :
    world.connections.Perm (asked emitters consumers) := by
  rw [List.perm_iff_count]
  rintro ⟨e, c⟩
  have hlookup := lookup_perm (h.emitters.trans hemitters) h.registered.emitterKeys
  rw [h.wired, count_asked, ← (h.consumers.trans hconsumers).countP_eq]
  simp only [entryCount, hlookup]

/-! ## Any order -/

/-- The calls that register the emitters and the consumers. -/
def registrations (emitters : List (Key × IEventEmitter))
    (consumers : List ((Key ×ₗ Key) × IEventConsumer)) : List ChannelCall :=
  emitters.map (fun p => .registerEmitter p.1 (some p.2)) ++
    consumers.map (fun p => .registerConsumer (ofLex p.1).1 (ofLex p.1).2 (some p.2))

/-- Distinct keys, none of them empty, and matching signatures under one emitter key. -/
structure Registrable (emitters : List (Key × IEventEmitter))
    (consumers : List ((Key ×ₗ Key) × IEventConsumer)) : Prop where
  emitterKeys : (keys emitters).Nodup
  consumerKeys : (keys consumers).Nodup
  emitterKeys_ne : ∀ p ∈ emitters, p.1 ≠ []
  consumerKeys_ne : ∀ p ∈ consumers, (ofLex p.1).1 ≠ [] ∧ (ofLex p.1).2 ≠ []
  signatures : ∀ p ∈ emitters, ∀ q ∈ consumers, (ofLex q.1).2 = p.1 →
    q.2.subscriberType = p.2.subscriberType

theorem emittersOf_registrations (emitters : List (Key × IEventEmitter))
    (consumers : List ((Key ×ₗ Key) × IEventConsumer)) :
    emittersOf (registrations emitters consumers) = emitters := by
  have hemitters : emittersOf (emitters.map fun p => .registerEmitter p.1 (some p.2)) = emitters := by
    rw [emittersOf, List.filterMap_map]
    exact List.filterMap_some
  have hconsumers : emittersOf (consumers.map fun p =>
      .registerConsumer (ofLex p.1).1 (ofLex p.1).2 (some p.2)) = [] := by
    rw [emittersOf, List.filterMap_map]
    exact List.filterMap_eq_nil_iff.mpr fun _ _ => rfl
  rw [registrations, emittersOf_append, hemitters, hconsumers, List.append_nil]

theorem consumersOf_registrations (emitters : List (Key × IEventEmitter))
    (consumers : List ((Key ×ₗ Key) × IEventConsumer)) :
    consumersOf (registrations emitters consumers) = consumers := by
  have hemitters : consumersOf (emitters.map fun p => .registerEmitter p.1 (some p.2)) = [] := by
    rw [consumersOf, List.filterMap_map]
    exact List.filterMap_eq_nil_iff.mpr fun _ _ => rfl
  have hconsumers : consumersOf (consumers.map fun p =>
      .registerConsumer (ofLex p.1).1 (ofLex p.1).2 (some p.2)) = consumers := by
    rw [consumersOf, List.filterMap_map]
    exact List.filterMap_some
  rw [registrations, consumersOf_append, hemitters, hconsumers, List.nil_append]

theorem Registrable.orderly {emitters : List (Key × IEventEmitter)}
    {consumers : List ((Key ×ₗ Key) × IEventConsumer)} (h : Registrable emitters consumers) :
    Orderly (registrations emitters consumers) := by
  refine ⟨?_, ?_, ?_, ?_⟩
  · intro c hc
    rcases List.mem_append.mp hc with hc | hc
    · obtain ⟨p, hp, rfl⟩ := List.mem_map.mp hc
      exact .emitter (h.emitterKeys_ne p hp) p.2
    · obtain ⟨p, hp, rfl⟩ := List.mem_map.mp hc
      exact .consumer (h.consumerKeys_ne p hp).1 (h.consumerKeys_ne p hp).2 p.2
  · rw [emittersOf_registrations]
    exact h.emitterKeys
  · rw [consumersOf_registrations]
    exact h.consumerKeys
  · intro emitterKey emitter consumerKey consumer hemitter hconsumer
    have hp : (emitterKey, emitter) ∈ emitters := by
      rw [← emittersOf_registrations emitters consumers]
      exact List.mem_filterMap.mpr ⟨_, hemitter, rfl⟩
    have hq : (toLex (consumerKey, emitterKey), consumer) ∈ consumers := by
      rw [← consumersOf_registrations emitters consumers]
      exact List.mem_filterMap.mpr ⟨_, hconsumer, rfl⟩
    exact h.signatures _ hp _ hq rfl

theorem Registrable.run {emitters : List (Key × IEventEmitter)}
    {consumers : List ((Key ×ₗ Key) × IEventConsumer)} (h : Registrable emitters consumers)
    {calls : List ChannelCall} (hcalls : calls.Perm (registrations emitters consumers)) :
    NoThrow calls ∧ (Runs.run step new calls).connections.Perm (asked emitters consumers) := by
  have horderly : Orderly calls := h.orderly.of_perm hcalls.symm
  have hemitters := emittersOf_perm hcalls
  have hconsumers := consumersOf_perm hcalls
  rw [emittersOf_registrations] at hemitters
  rw [consumersOf_registrations] at hconsumers
  exact ⟨horderly.noThrow, (built_run horderly).connections hemitters hconsumers⟩

end EventWorld

open EventWorld in
/-- In whatever order emitters and consumers are registered, no call throws, and the connections
are the same: one for each consumer whose emitter is registered. -/
theorem registration_order {emitters : List (Key × IEventEmitter)}
    {consumers : List ((Key ×ₗ Key) × IEventConsumer)} (h : Registrable emitters consumers)
    {calls calls' : List ChannelCall} (hcalls : calls.Perm (registrations emitters consumers))
    (hcalls' : calls'.Perm (registrations emitters consumers)) :
    NoThrow calls ∧ NoThrow calls' ∧
      (Runs.run step new calls).connections.Perm (Runs.run step new calls').connections ∧
      (Runs.run step new calls).connections.Perm (asked emitters consumers) := by
  obtain ⟨hthrow, hconnections⟩ := h.run hcalls
  obtain ⟨hthrow', hconnections'⟩ := h.run hcalls'
  exact ⟨hthrow, hthrow', hconnections.trans hconnections'.symm, hconnections⟩

/-- An emitter with two consumers, one of which waits for another emitter. -/
def sampleEmitters : List (Key × IEventEmitter) := [("e".toList, ⟨1, "void()".toList⟩)]

def sampleConsumers : List ((Key ×ₗ Key) × IEventConsumer) :=
  [(toLex ("c".toList, "e".toList), ⟨2, "void()".toList⟩),
    (toLex ("c".toList, "f".toList), ⟨3, "int()".toList⟩)]

open EventWorld in
theorem registrable_sample : Registrable sampleEmitters sampleConsumers where
  emitterKeys := by decide
  consumerKeys := by decide
  emitterKeys_ne := by decide
  consumerKeys_ne := by decide
  signatures := by decide

open EventWorld in
theorem registration_order_sample :
    let calls := registrations sampleEmitters sampleConsumers
    NoThrow calls ∧ NoThrow calls.reverse ∧
      (Runs.run step new calls).connections.Perm (Runs.run step new calls.reverse).connections ∧
      (Runs.run step new calls).connections.Perm (asked sampleEmitters sampleConsumers) :=
  registration_order registrable_sample (List.Perm.refl _) (List.reverse_perm _)

open EventWorld in
/-- An emitter with an empty key is refused. -/
theorem registration_of_empty_key_throws :
    ¬ NoThrow (registrations [([], ⟨1, "void()".toList⟩)] []) := by
  intro h
  obtain ⟨world', hrun⟩ := h [] _ List.prefix_rfl
  cases hrun

end Azulejo
