import Azulejo.Events.EventChannel
import Azulejo.Lib.Transitions

/-!
# Emitters and consumers that are destroyed

The channel has weak pointers: what was destroyed stays in its maps and is passed over. The
connection of a destroyed consumer is not called any more, since its slot tracks the consumer.
-/

namespace Azulejo

/-- What happens to a channel and its objects. -/
inductive ObjectEvent where
  /-- A call, with an object that is there. -/
  | call (c : ChannelCall)
  | emitterDestroyed (emitter : IEventEmitter)
  | consumerDestroyed (consumer : IEventConsumer)

namespace EventWorld

/-- The object that the call registers is there. -/
def alive (world : EventWorld) : ChannelCall → Prop
  | .registerEmitter _ (some emitter) => emitter ∉ world.expiredEmitters
  | .registerConsumer _ _ (some consumer) => consumer ∉ world.expiredConsumers
  | _ => True

instance decidableAlive (world : EventWorld) : (c : ChannelCall) → Decidable (world.alive c)
  | .registerEmitter _ (some emitter) => inferInstanceAs (Decidable (emitter ∉ _))
  | .registerConsumer _ _ (some consumer) => inferInstanceAs (Decidable (consumer ∉ _))
  | .registerEmitter _ none | .registerConsumer _ _ none | .unregisterEmitter _
  | .unregisterConsumer _ _ => .isTrue trivial

/-- One event, if it can happen. -/
def event (world : EventWorld) : ObjectEvent → Option EventWorld
  | .call c => if world.alive c then some (world.step c) else none
  | .emitterDestroyed emitter =>
    if emitter ∈ world.expiredEmitters then none
    else some { world with expiredEmitters := emitter :: world.expiredEmitters }
  | .consumerDestroyed consumer =>
    if consumer ∈ world.expiredConsumers then none
    else some { world with expiredConsumers := consumer :: world.expiredConsumers }

/-- The consumers that are called when `Signal()` of the emitter is, in the order in which they
were connected. -/
def emission (world : EventWorld) (emitter : IEventEmitter) : List IEventConsumer :=
  if emitter ∈ world.expiredEmitters then []
  else (world.connections.filter fun p => p.1 = emitter ∧ p.2 ∉ world.expiredConsumers).map Prod.snd

end EventWorld

end Azulejo
