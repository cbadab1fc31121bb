import ScriptEvents.Registry.Basic
/-!
Turns: what the registry does between two moments at which someone else acts. A turn starts with an
operation or with the reply that one waits for; it may change what is stored, publishes events, and
ends with a request to a collaborator or with the outcome. A turn never waits, so whatever the
collaborators do, they find the registry between two turns.
-/
namespace ScriptEvents

/-- The registry after a turn, what it was handed, the events it published, in order, and where the
operation stands. -/
structure Turn where
  registry : Registry
  receipts : List Receipt := []
  events : List LifecycleEvent
  signal : Signal

def Turn.receive (t : Turn) (receipt : Receipt) : Turn :=
  { t with receipts := receipt :: t.receipts }

structure ListenRequest where
  name : Value
  options : Value
  callback : Option Procedure

/-- A request is a proper list of a name, options and a callback. Options may be left out, the
callback may be left out or `nil`, and what follows it does not matter. -/
def ListenRequest.ofValue (request : Value) : Except ListenerError ListenRequest :=
  if !request.isList then
    .error (.invalidRequest ("expected a list, got " ++ request.typeName))
  else match request.items with
    | [] => .error (.invalidRequest "missing event name")
    | [name] => .ok { name, options := .nil, callback := none }
    | [name, options] => .ok { name, options, callback := none }
    | name :: options :: .nil :: _ => .ok { name, options, callback := none }
    | name :: options :: .procedure p :: _ => .ok { name, options, callback := some p }
    | _ :: _ :: callback :: _ => .error (.invalidCallback callback.typeName)

namespace Registry

def publish (r : Registry) (events : List LifecycleEvent) (signal : Signal) : Turn :=
  { registry := events.foldl record r, events, signal }

def refuse (r : Registry) (e : ListenerError) : Turn :=
  r.publish [] (.done (.registered (.error e)))

def ignore (r : Registry) (name : String) : Turn :=
  r.publish [.ignored name] (.done (.registered (.ok (.ignored name))))

/-- Stores the listener under its id and invokes its directive. The listener is stored first, so the
directive may deliver to it at once. -/
def store (r : Registry) (p : Proposal) (target : Directive) (id : ListenerId) : Turn :=
  if id = .invalid then r.refuse (.invalidId id)
  else match r.listeners.insert? { p.subscription id with } with
    | some listeners =>
      { r with listeners }.publish [.registered id p.name p.once]
        (.ask (.invoke target p.options id) (.settingUp (p.subscription id)))
    | none => r.refuse (.invalidId id)

def enroll (r : Registry) (p : Proposal) (target : Directive) (id : ListenerId) : Turn :=
  (r.store p target id).receive (.id p.session id)

def resolved (r : Registry) (p : Proposal) : Except ResolveError (Option DirectiveEntry) → Turn
  | .error e => r.refuse (.resolve e)
  | .ok none => r.refuse (.unknownDirective p.name)
  | .ok (some .ignore) => r.ignore p.name
  | .ok (some (.notCallable _)) => r.refuse (.invalidDirective p.name)
  | .ok (some (.directive target)) =>
    match r.ids.next? p.session with
    | some (id, ids) => { r with ids }.enroll p target id
    | none => r.publish [] (.ask (.allocate p.context) (.allocating p target))

def register (r : Registry) (request : Value) (session : Option Session) (once : Bool) : Turn :=
  match ListenRequest.ofValue request with
  | .error e => r.refuse e
  | .ok parts =>
    match parts.name.key? with
    | none => r.refuse (.resolve (.invalidName parts.name.typeName))
    | some name =>
      let p : Proposal :=
        { name, options := parts.options, callback := parts.callback, once, request, session }
      if name ∈ r.config.ignoredDirectives then r.ignore name
      else match r.resolver with
        | .directory d => r.resolved p (d.resolve parts.name)
        | .external => r.publish [] (.ask (.resolve parts.name) (.resolving p))

def active (r : Registry) (s : Subscription) : Turn :=
  r.publish [] (.done (.registered (.ok
    (.active { s with cancellable := r.isCancellable s.id }))))

/-- Goes on after a removal: the listener's handle runs first, if it has one. -/
def stop (l : Listener) (waiting : Pending) (next : Signal) : Signal :=
  match l.handle with
  | some handle => .ask (.stop handle) waiting
  | none => next

def remove (r : Registry) (id : ListenerId) : Registry :=
  { r with listeners := r.listeners.erase id }

@[simp] theorem remove_listeners (r : Registry) (id : ListenerId) :
    (r.remove id).listeners = r.listeners.erase id := rfl

@[simp] theorem remove_ids (r : Registry) (id : ListenerId) : (r.remove id).ids = r.ids := rfl

@[simp] theorem remove_handles (r : Registry) (id : ListenerId) :
    (r.remove id).handles = r.handles := rfl

@[simp] theorem remove_hasDispatchHandler (r : Registry) (id : ListenerId) :
    (r.remove id).hasDispatchHandler = r.hasDispatchHandler := rfl

/-- Goes on when the directive has returned. It may have dispatched to the new listener or cancelled
it, so the listener may be gone: a handle then runs at once, and a refusal removes nothing. -/
def setUp (r : Registry) (s : Subscription) : Except DirectiveError Bool → Turn
  | .ok false => r.active s
  | .ok true =>
    let handle : CancelHandle := ⟨r.handles⟩
    let r := { r with handles := r.handles + 1 }
    if r.contains s.id then
      ({ r with listeners := r.listeners.attach s.id handle }.active s).receive (.handle s.id handle)
    else (r.publish [] (.ask (.stop handle) (.stoppingLate s))).receive (.handle s.id handle)
  | .error e =>
    let outcome : Outcome := .registered (.error (.directive s.name e))
    match r.listeners.find? s.id with
    | some l =>
      (r.remove s.id).publish [.removed s.id .setupFailed]
        (stop l (.rejecting s.name e) (.done outcome))
    | none => r.publish [] (.done outcome)

def cancel (r : Registry) (id : ListenerId) : Turn :=
  match r.listeners.find? id with
  | some l =>
    (r.remove id).publish [.removed id .cancelled] (stop l .cancelling (.done (.cancelled true)))
  | none => r.publish [] (.done (.cancelled false))

/-- Cancels the listeners of these ids that are still there, one after the other. -/
def tearDown (r : Registry) (report : CancelReport) : List ListenerId → Turn
  | [] => r.publish [] (.done (.tornDown report))
  | id :: left =>
    match r.listeners.find? id with
    | some l =>
      let e : LifecycleEvent := .removed id .teardown
      let report := { report with cancelled := report.cancelled ++ [id] }
      match l.handle with
      | some handle => (r.remove id).publish [e] (.ask (.stop handle) (.tearingDown id left report))
      | none =>
        let turn := ((r.remove id).record e).tearDown report left
        { turn with events := e :: turn.events }
    | none => r.tearDown report left

def delivery (r : Registry) (listener : Snapshot) (payload : HostValue) : Signal :=
  match payload.coerceArguments r.config.quoteArguments with
  | .error e => .done (.delivered (.error (.coercion e)))
  | .ok arguments =>
    match listener.callback with
    | some callback =>
      .ask (.evaluate (.pair (.procedure callback) (.ofList arguments))) (.evaluating listener)
    | none => .done (.delivered (.ok none))

/-- Delivers a payload to a listener; one that is gone gets nothing. A listener that fires for the
last time is removed first, so its callback never finds it. A dispatch handler takes over instead.
-/
def dispatch (r : Registry) (id : ListenerId) (payload : HostValue) (isFinal : Bool) : Turn :=
  match r.listeners.find? id with
  | none => r.publish [] (.done (.delivered (.ok none)))
  | some l =>
    if r.hasDispatchHandler then
      r.publish [.dispatched id isFinal]
        (.ask (.handleDispatch l.snapshot payload isFinal) .handling)
    else if l.once || isFinal then
      (r.remove id).publish [.dispatched id isFinal, .removed id .fired]
        (stop l (.firing l.snapshot payload) (r.delivery l.snapshot payload))
    else r.publish [.dispatched id isFinal] (r.delivery l.snapshot payload)

/-- Goes on with the callback's result. Its error goes to the error handler, if there is one. -/
def evaluated (r : Registry) (listener : Snapshot) : Except EvalError Value → Turn
  | .ok value => r.publish [] (.done (.delivered (.ok (some value))))
  | .error e =>
    r.publish [.callbackFailed listener.id e.message] (
      if r.hasErrorHandler then .ask (.handleError listener e) (.recovering listener.id)
      else .done (.delivered (.error (.evaluation listener.id e))))

def start (r : Registry) : Operation → Turn
  | .register request session once => r.register request session once
  | .cancel id => r.cancel id
  | .cancelAll order => r.tearDown {} order
  | .dispatch id payload isFinal => r.dispatch id payload isFinal

/-- The turn that goes on with an operation, if this is the kind of reply it waits for. -/
def resume? (r : Registry) : Pending → Reply → Option Turn
  | .resolving p, .resolved result => some (r.resolved p result)
  | .allocating p target, .allocated id => some (r.enroll p target id)
  | .settingUp s, .setUp result => some (r.setUp s result)
  | .stoppingLate s, .stopped _ => some (r.active s)
  | .rejecting name e, .stopped _ =>
    some (r.publish [] (.done (.registered (.error (.directive name e)))))
  | .cancelling, .stopped _ => some (r.publish [] (.done (.cancelled true)))
  | .tearingDown _ left report, .stopped (.ok _) => some (r.tearDown report left)
  | .tearingDown id left report, .stopped (.error e) =>
    some (r.tearDown { report with failures := report.failures ++ [(id, e)] } left)
  | .firing listener payload, .stopped _ => some (r.publish [] (r.delivery listener payload))
  | .evaluating listener, .evaluated result => some (r.evaluated listener result)
  | .recovering _, .errorHandled (.ok value) =>
    some (r.publish [] (.done (.delivered (.ok (some value)))))
  | .recovering id, .errorHandled (.error e) =>
    some (r.publish [] (.done (.delivered (.error (.evaluation id e)))))
  | .handling, .dispatchHandled result => some (r.publish [] (.done (.delivered result)))
  | _, _ => none

end Registry

/-!
A machine is a registry together with the operations in progress on it. While an operation waits
for a collaborator, that collaborator may start operations of its own, and so on to any depth: the
operations in progress form a stack. Any list of moves that `run` accepts is a possible history,
so what holds of all of them holds whatever the collaborators do.
-/

inductive Move where
  | call (operation : Operation)
  | reply (reply : Reply)
  | edit (change : Directory.Change)

inductive Effect where
  | called (operation : Operation)
  | replied (reply : Reply)
  | received (receipt : Receipt)
  | published (event : LifecycleEvent)
  | asked (request : Request)
  | returned (outcome : Outcome)

def Signal.effect : Signal → Effect
  | ask request _ => .asked request
  | done outcome => .returned outcome

def Turn.effects (t : Turn) : List Effect :=
  t.receipts.map .received ++ t.events.map .published ++ [t.signal.effect]

structure Machine where
  registry : Registry
  -- The operations in progress, innermost first.
  pending : List Pending := []

namespace Machine

/-- The order names every stored listener exactly once. -/
def mayCall (m : Machine) : Operation → Bool
  | .cancelAll order => order.isPerm m.registry.listeners.ids
  | _ => true

def finish (others : List Pending) (cause : Effect) (turn : Turn) : Machine × List Effect :=
  ({ registry := turn.registry, pending := turn.signal.pending ++ others }, cause :: turn.effects)

/-- One move, and what passes then. A reply must be of the kind that is awaited. -/
def step (m : Machine) : Move → Option (Machine × List Effect)
  | .call operation =>
    if m.mayCall operation then
      some (finish m.pending (.called operation) (m.registry.start operation))
    else none
  | .reply reply =>
    match m.pending with
    | waiting :: others => (m.registry.resume? waiting reply).map (finish others (.replied reply))
    | [] => none
  | .edit change => some ({ m with registry := m.registry.editDirectory change }, [])

def run (m : Machine) : List Move → Option (Machine × List Effect)
  | [] => some (m, [])
  | move :: moves =>
    match m.step move with
    | some (m, seen) => (m.run moves).map fun (m, later) => (m, seen ++ later)
    | none => none

end Machine

end ScriptEvents
