import ScriptEvents.Listener
import ScriptEvents.Json
/-!
Lifecycle events: what observers learn of listeners coming, firing and going.
-/
namespace ScriptEvents

inductive RemovalReason where
  | cancelled
  | fired
  | setupFailed
  | teardown
  deriving DecidableEq, Repr

inductive LifecycleEvent where
  | registered (id : ListenerId) (name : String) (once : Bool)
  | ignored (name : String)
  | dispatched (id : ListenerId) (isFinal : Bool)
  | removed (id : ListenerId) (reason : RemovalReason)
  | callbackFailed (id : ListenerId) (message : String)
  deriving DecidableEq, Repr

namespace LifecycleEvent

inductive Kind where
  | registered
  | ignored
  | dispatched
  | removed
  | callbackFailed
  deriving DecidableEq, Repr

def kind : LifecycleEvent → Kind
  | registered .. => .registered
  | ignored .. => .ignored
  | dispatched .. => .dispatched
  | removed .. => .removed
  | callbackFailed .. => .callbackFailed

def listenerId? : LifecycleEvent → Option ListenerId
  | registered id _ _ => some id
  | ignored _ => none
  | dispatched id _ => some id
  | removed id _ => some id
  | callbackFailed id _ => some id

end LifecycleEvent

/-!
Counters of lifecycle events, one for every kind. Each counts modulo `2 ^ 64`.
-/

structure Stats where
  registered : UInt64 := 0
  ignored : UInt64 := 0
  dispatched : UInt64 := 0
  removed : UInt64 := 0
  callbackErrors : UInt64 := 0
  deriving DecidableEq, Repr

namespace Stats

def record (s : Stats) : LifecycleEvent.Kind → Stats
  | .registered => { s with registered := s.registered + 1 }
  | .ignored => { s with ignored := s.ignored + 1 }
  | .dispatched => { s with dispatched := s.dispatched + 1 }
  | .removed => { s with removed := s.removed + 1 }
  | .callbackFailed => { s with callbackErrors := s.callbackErrors + 1 }

def counters (s : Stats) : List (String × UInt64) :=
  [("registered", s.registered), ("ignored", s.ignored), ("dispatched", s.dispatched),
    ("removed", s.removed), ("callback_errors", s.callbackErrors)]

def text (s : Stats) : String :=
  Json.Printer.object (s.counters.map fun (name, count) => (name, Text.integer count.toNat))

end Stats

/-!
The lifecycle bus: a log that receivers read at their own pace, each from where it subscribed.
Only so many of the latest events can still be read; a receiver that has fallen further behind is
told how many were overwritten before it read them, and goes on at the end of the log.
-/

structure LifecycleBus where
  capacity : Nat
  log : Array LifecycleEvent := #[]
  isOpen : Bool := true

structure LifecycleReceiver where
  position : Nat

namespace LifecycleBus

def ofCapacity (capacity : Nat) : LifecycleBus :=
  { capacity := max 1 capacity }

/-- How many events can still be read: the least power of two that is not below the capacity. -/
def retention (b : LifecycleBus) : Nat :=
  if b.capacity ≤ 1 then 1 else 1 <<< ((b.capacity - 1).log2 + 1)

def publish (b : LifecycleBus) (e : LifecycleEvent) : LifecycleBus :=
  { b with log := b.log.push e }

def publishAll (b : LifecycleBus) (events : List LifecycleEvent) : LifecycleBus :=
  events.foldl publish b

def close (b : LifecycleBus) : LifecycleBus :=
  { b with isOpen := false }

def subscribe (b : LifecycleBus) : LifecycleReceiver :=
  ⟨b.log.size⟩

/-- The next event, without waiting: `none` if none is pending. A receiver that fell behind by more
than the bus retains loses all that is pending. -/
def receive (b : LifecycleBus) (r : LifecycleReceiver) :
    LifecycleReceiver × Except LifecycleError (Option LifecycleEvent) :=
  let behind := b.log.size - r.position
  if b.retention < behind then (b.subscribe, .error (.lagged (behind - b.retention)))
  else match b.log[r.position]? with
    | some e => (⟨r.position + 1⟩, .ok (some e))
    | none => (r, if b.isOpen then .ok none else .error (.receiveFailed "channel closed"))

/-- At most so many events, up to the first attempt that yields none, and its error if it failed. -/
def readUpTo (b : LifecycleBus) : Nat → LifecycleReceiver →
    LifecycleReceiver × List LifecycleEvent × Option LifecycleError
  | 0, r => (r, [], none)
  | n + 1, r =>
    match b.receive r with
    | (r, .ok (some e)) =>
      let (r, events, error) := b.readUpTo n r
      (r, e :: events, error)
    | (r, .ok none) => (r, [], none)
    | (r, .error error) => (r, [], some error)

def readAll (b : LifecycleBus) (r : LifecycleReceiver) :
    LifecycleReceiver × List LifecycleEvent × Option LifecycleError :=
  b.readUpTo (b.log.size - r.position + 1) r

/-- Every pending event, without a word on how it ended. -/
def drain (b : LifecycleBus) (r : LifecycleReceiver) : LifecycleReceiver × List LifecycleEvent :=
  let (r, events, _) := b.readAll r
  (r, events)

end LifecycleBus

/-!
An exchange is a bus together with its receivers, each under a name. What a receiver obtains
depends on the bus and on its own steps alone. Once the bus is closed its receivers can still read
what was published, and nothing else changes any more.
-/

structure Exchange where
  bus : LifecycleBus
  receivers : Dictionary LifecycleReceiver := .empty

namespace Exchange

inductive Step where
  | publish (event : LifecycleEvent) (times : Nat)
  | publishRange (first last : ListenerId)
  | subscribe (name : String)
  | unsubscribe (name : String)
  | close
  | tryReceive (name : String)
  | poll (name : String)
  | drain (name : String)

inductive Answer where
  | done
  | noReceiver
  | received (result : Except LifecycleError (Option LifecycleEvent))
  | polled (result : Except LifecycleError (Option LifecycleEvent))
  | drained (events : List LifecycleEvent)

def ofCapacity (capacity : Nat) : Exchange :=
  { bus := .ofCapacity capacity }

/-- The number of receivers; none once the bus is closed. -/
def subscribers? (x : Exchange) : Option Nat :=
  if x.bus.isOpen then some x.receivers.size else none

def dispatches (first last : ListenerId) : List LifecycleEvent :=
  (List.range (last.toInt - first.toInt).toNat).map fun k =>
    .dispatched (first + .ofNat k) false

def read (x : Exchange) (name : String)
    (attempt : LifecycleReceiver → LifecycleReceiver × Answer) : Exchange × Answer :=
  match x.receivers.find? name with
  | some r =>
    let (r, answer) := attempt r
    ({ x with receivers := x.receivers.insert name r }, answer)
  | none => (x, .noReceiver)

def step (x : Exchange) : Step → Exchange × Answer
  | .publish event times =>
    if x.bus.isOpen then ({ x with bus := x.bus.publishAll (.replicate times event) }, .done)
    else (x, .done)
  | .publishRange first last =>
    if x.bus.isOpen then ({ x with bus := x.bus.publishAll (dispatches first last) }, .done)
    else (x, .done)
  | .subscribe name =>
    if x.bus.isOpen then ({ x with receivers := x.receivers.insert name x.bus.subscribe }, .done)
    else (x, .done)
  | .unsubscribe name =>
    if x.bus.isOpen then ({ x with receivers := x.receivers.erase name }, .done) else (x, .done)
  | .close => ({ x with bus := x.bus.close }, .done)
  | .tryReceive name =>
    x.read name fun r => let (r, result) := x.bus.receive r; (r, .received result)
  | .poll name => x.read name fun r => let (r, result) := x.bus.receive r; (r, .polled result)
  | .drain name => x.read name fun r => let (r, events) := x.bus.drain r; (r, .drained events)

def run (x : Exchange) : List Step → List (Answer × Option Nat)
  | [] => []
  | s :: steps =>
    let (x, answer) := x.step s
    (answer, x.subscribers?) :: x.run steps

end Exchange

end ScriptEvents
