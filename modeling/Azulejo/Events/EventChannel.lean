import Azulejo.Basic
import Azulejo.Lib.AssocList
import Azulejo.Lib.Runs
import Mathlib.Data.Prod.Lex
import Mathlib.Data.List.Lex
import Mathlib.Data.Char

/-!
# Event channels

`EventChannel` keeps weak pointers to emitters by their key, and to consumers by their own key
and that of the emitter they are for. A registration connects the new emitter, or the new
consumer, with what the other map has for it; no connection is recorded in the channel. Here the
connections that the channel made stand next to it, with the objects that are destroyed.
-/

namespace Azulejo

open AssocList

/-- An emitter `EventEmitter<T>`, with the name of `T`. -/
structure IEventEmitter where
  address : Nat
  subscriberType : Str
  deriving DecidableEq

/-- A consumer `EventConsumer<T>`, with the name of `T`. -/
structure IEventConsumer where
  address : Nat
  subscriberType : Str
  deriving DecidableEq

/-- The two maps of a channel. -/
structure EventChannel where
  emitterMap : List (Key × IEventEmitter)
  /-- By the key of the consumer and that of the emitter, in the order of pairs. -/
  consumerMap : List ((Key ×ₗ Key) × IEventConsumer)

/-- A channel and the objects that are registered in it. -/
structure EventWorld where
  channel : EventChannel
  /-- The connections that were made, the oldest first. -/
  connections : List (IEventEmitter × IEventConsumer)
  expiredEmitters : List IEventEmitter
  expiredConsumers : List IEventConsumer

/-- `EventEmitter::Connect`. -/
def IEventEmitter.connect (emitter : IEventEmitter) (subscriber : IEventConsumer) :
    EStateM Exception EventWorld Unit := do
  if subscriber.subscriberType ≠ emitter.subscriberType then
    throw (.runtimeError
      ("Cannot connect event emitter to event consumer because event consumer is not of type=".toList
        ++ emitter.subscriberType))
  else
    modify fun world => { world with connections := world.connections ++ [(emitter, subscriber)] }

namespace EventChannel

def new : EventChannel := ⟨[], []⟩

/-- `IsEmitterRegistered`. -/
def isEmitterRegistered (channel : EventChannel) (emitterKey : Key) : Bool :=
  (List.lookup emitterKey channel.emitterMap).isSome

/-- `IsConsumerRegistered`. -/
def isConsumerRegistered (channel : EventChannel) (consumerKey emitterKey : Key) : Bool :=
  (List.lookup (toLex (consumerKey, emitterKey)) channel.consumerMap).isSome

/-- The loop of `RegisterEmitter` over `consumerMap_`. -/
def connectConsumers (emitterKey : Key) (emitter : IEventEmitter) :
    List ((Key ×ₗ Key) × IEventConsumer) → EStateM Exception EventWorld Unit
  | [] => pure ()
  | (consumerEmitterNamePair, ieventConsumer) :: rest => do
    let world ← get
    if (ofLex consumerEmitterNamePair).2 = emitterKey ∧
        ieventConsumer ∉ world.expiredConsumers then
      emitter.connect ieventConsumer
    connectConsumers emitterKey emitter rest

/-- The loop of `RegisterConsumer` over `emitterMap_`. -/
def connectEmitters (emitterKey : Key) (consumer : IEventConsumer) :
    List (Key × IEventEmitter) → EStateM Exception EventWorld Unit
  | [] => pure ()
  | (emitterName, ieventEmitter) :: rest => do
    let world ← get
    if emitterName = emitterKey ∧ ieventEmitter ∉ world.expiredEmitters then
      ieventEmitter.connect consumer
    connectEmitters emitterKey consumer rest

/-- `RegisterEmitter`. -/
def registerEmitter (emitterKey : Key) (emitter : Option IEventEmitter) :
    EStateM Exception EventWorld Unit := do
  if emitterKey = [] then
    throw (.logicError "Cannot register emitter with empty key in EventChannel.".toList)
  else match emitter with
    | none => throw (.logicError "Cannot register NULL emitter in EventChannel.".toList)
    | some emitter =>
      let world ← get
      if world.channel.isEmitterRegistered emitterKey then
        throw (.runtimeError
          "IEventEmitter with key is already registered in this EventChannel".toList)
      else
        connectConsumers emitterKey emitter world.channel.consumerMap
        modify fun world =>
          { world with
            channel := { world.channel with
              emitterMap := insertSorted emitterKey emitter world.channel.emitterMap } }

/-- `UnregisterEmitter`. -/
def unregisterEmitter (emitterKey : Key) : EStateM Exception EventWorld Unit := do
  if emitterKey = [] then
    throw (.logicError "Cannot unregister emitter with empty key in EventChannel.".toList)
  else
    let world ← get
    if !world.channel.isEmitterRegistered emitterKey then
      throw (.runtimeError "IEventEmitter with key is not registered in this EventChannel".toList)
    else
      set { world with
        channel := { world.channel with
          emitterMap := world.channel.emitterMap.filter fun p => p.1 ≠ emitterKey } }

/-- `RegisterConsumer`. -/
def registerConsumer (consumerKey emitterKey : Key) (consumer : Option IEventConsumer) :
    EStateM Exception EventWorld Unit := do
  if consumerKey = [] ∨ emitterKey = [] then
    throw (.logicError "Cannot register consumer with empty key in EventChannel.".toList)
  else match consumer with
    | none => throw (.logicError "Cannot register NULL consumer in EventChannel.".toList)
    | some consumer =>
      let world ← get
      if world.channel.isConsumerRegistered consumerKey emitterKey then
        throw (.runtimeError
          ("IEventConsumer with key=[".toList ++ consumerKey ++ ",".toList ++ emitterKey
            ++ "] is already registered in this EventChannel".toList))
      else
        connectEmitters emitterKey consumer world.channel.emitterMap
        modify fun world =>
          { world with
            channel := { world.channel with
              consumerMap :=
                insertSorted (toLex (consumerKey, emitterKey)) consumer world.channel.consumerMap } }

/-- `UnregisterConsumer`. -/
def unregisterConsumer (consumerKey emitterKey : Key) : EStateM Exception EventWorld Unit := do
  if consumerKey = [] ∨ emitterKey = [] then
    throw (.logicError "Cannot unregister consumer with empty key in EventChannel.".toList)
  else
    let world ← get
    if !world.channel.isConsumerRegistered consumerKey emitterKey then
      throw (.runtimeError "IEventConsumer with key is not registered in this EventChannel".toList)
    else
      set { world with
        channel := { world.channel with
          consumerMap := world.channel.consumerMap.filter fun p =>
            p.1 ≠ toLex (consumerKey, emitterKey) } }

end EventChannel

/-! ## Calls -/

/-- The operations of a channel. A null pointer is `none`. -/
inductive ChannelCall where
  | registerEmitter (emitterKey : Key) (emitter : Option IEventEmitter)
  | unregisterEmitter (emitterKey : Key)
  | registerConsumer (consumerKey emitterKey : Key) (consumer : Option IEventConsumer)
  | unregisterConsumer (consumerKey emitterKey : Key)

namespace EventWorld

/-- A fresh channel, with no object destroyed. -/
def new : EventWorld := ⟨EventChannel.new, [], [], []⟩

def call : ChannelCall → EStateM Exception EventWorld Unit
  | .registerEmitter emitterKey emitter => EventChannel.registerEmitter emitterKey emitter
  | .unregisterEmitter emitterKey => EventChannel.unregisterEmitter emitterKey
  | .registerConsumer consumerKey emitterKey consumer =>
    EventChannel.registerConsumer consumerKey emitterKey consumer
  | .unregisterConsumer consumerKey emitterKey =>
    EventChannel.unregisterConsumer consumerKey emitterKey

/-- One call, whose exception the caller handles. -/
def step (world : EventWorld) (c : ChannelCall) : EventWorld :=
  Stateful.finalState ((call c).run world)

end EventWorld

end Azulejo
