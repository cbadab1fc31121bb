import ScriptEvents.Procedures
import ScriptEvents.Registry.Machine
import ScriptEvents.Scenario.Script
/-!
The stage of a scenario: the registry with the operations in progress, the bus that its events go
to, what has been installed and supplied, and which scripts are running.
-/
namespace ScriptEvents

namespace Scenario

inductive Answer where
  | done
  | flag (value : Bool)
  | registration (registration : Registration)
  | value (value : Value)
  | delivery (value : Option Value)
  | report (report : CancelReport)
  | snapshot (listener : Option Snapshot)
  | info (registry : Registry)
  | dispatcher (dispatcher : Dispatcher) (isActive : Bool)
  | noDispatcher
  | noProcedure
  | task (isRunning : Bool)
  | noTask
  | library (library : DirectiveLibrary)
  | removed (entry : Option DirectiveEntry)
  | names (directory : Directory) (contained : Bool)
  | resolved (entry : Option DirectiveEntry)
  | observed (answer : Exchange.Answer)
  | failed (error : Error)

inductive LogEntry where
  | invoked (id : ListenerId) (options : Value)
  | acted (self : ListenerId) (command : Command) (answer : Answer)
  | stopped (id : ListenerId) (label : Option String)
  | evaluated (expression : Value)
  | errorHandled (listener : Snapshot) (error : EvalError)
  | dispatchHandled (listener : Snapshot) (payload : HostValue) (isFinal : Bool)
  | allocated (id : ListenerId) (context : AllocationContext)

def LogEntry.listenerId? : LogEntry → Option ListenerId
  | invoked id _ => some id
  | acted self _ _ => some self
  | stopped id _ => some id
  | evaluated _ => none
  | errorHandled listener _ => some listener.id
  | dispatchHandled listener _ _ => some listener.id
  | allocated id _ => some id

inductive ScriptKey where
  | directive (directive : Directive)
  | handle (directive : Directive)
  | rule (index : Nat)
  | errorHandler
  | dispatchHandler
  deriving DecidableEq, Repr

inductive Role where
  | scenario
  | directive (directive : Directive) (id : ListenerId)
  | handle (directive : Directive) (id : ListenerId)
  | evaluator (rule : EvalRule) (expression : Value)
  | errorHandler (handler : ErrorHandler) (id : ListenerId) (error : EvalError)
  | dispatchHandler (handler : DispatchHandler) (id : ListenerId)

/-- The listener on whose behalf commands run; the invalid id if there is none. -/
def Role.self : Role → ListenerId
  | scenario => .invalid
  | directive _ id => id
  | handle _ id => id
  | evaluator _ _ => .invalid
  | errorHandler _ id _ => id
  | dispatchHandler _ id => id

def Target.resolve (self : ListenerId) : Target → ListenerId
  | own => self
  | listener id => id

structure Activity where
  role : Role
  current : Option (Action Command) := none
  left : List (Action Command) := []

end Scenario

open Scenario

structure Stage where
  scenario : Scenario
  machine : Machine
  exchange : Exchange
  observer : LifecycleReceiver
  directory : Directory := .empty
  directives : Array (DirectiveScript Command) := #[]
  -- The listener and the directive of each handle supplied so far, by serial number.
  handles : Array (ListenerId × Directive) := #[]
  ended : List CancelHandle := []
  -- The dispatchers handed to directives so far.
  dispatchers : List Dispatcher := []
  allocated : Nat := 0
  -- The scripts run so far, as often as they were.
  runs : List ScriptKey := []
  activities : List Activity := []
  log : List LogEntry := []
  tornDown : Bool := false

namespace Stage

def registry (s : Stage) : Registry := s.machine.registry

def dispatcher? (s : Stage) (id : ListenerId) : Option Dispatcher :=
  s.dispatchers.find? (·.id == id)

def note (s : Stage) (entry : LogEntry) : Stage := { s with log := entry :: s.log }

def directiveScript (s : Stage) (d : Directive) : DirectiveScript Command :=
  s.directives[d.reference]?.getD {}

def isExhausted (s : Stage) (key : ScriptKey) (script : Script Command) : Bool :=
  match script.times with
  | some times => times ≤ s.runs.count key
  | none => false

def isTask (s : Stage) (d : Directive) : Bool :=
  match (s.directiveScript d).handle with
  | some .task => true
  | _ => false

def latestTask? (s : Stage) (id : ListenerId) : Option CancelHandle :=
  (List.range s.handles.size).reverse.findSome? fun serial =>
    match s.handles[serial]? with
    | some (owner, d) => if owner = id && s.isTask d then some ⟨serial⟩ else none
    | none => none

/-- Changes the directory, and the registry's if it is the same. -/
def change (s : Stage) (c : Directory.Change) : Stage :=
  let s := { s with directory := Directory.apply s.directory c }
  match s.scenario.lookup with
  | .shared =>
    match s.machine.step (.edit c) with
    | some (machine, _) => { s with machine }
    | none => s
  | _ => s

def prepare (s : Stage) : EntryScript Command → Stage × DirectiveEntry
  | .ignore => (s, .ignore)
  | .ofBool value => (s, .ofBool value)
  | .value value => (s, .notCallable value)
  | .directive d =>
    ({ s with directives := s.directives.push d }, .directive ⟨s.directives.size⟩)

def prepareAll (s : Stage) : List (String × EntryScript Command) →
    Stage × List (String × DirectiveEntry)
  | [] => (s, [])
  | (name, script) :: scripts =>
    let (s, entry) := s.prepare script
    let (s, entries) := s.prepareAll scripts
    (s, (name, entry) :: entries)

def add (s : Stage) (name : String) (script : EntryScript Command) : Stage :=
  let (s, entry) := s.prepare script
  s.change (.add name entry)

def ofScenario (scenario : Scenario) : Stage :=
  let registry : Registry :=
    { config := scenario.config
      resolver := match scenario.lookup with
        | .refusing _ => .external
        | _ => .directory .empty
      ids := match scenario.allocation with
        | .configured => .sequential scenario.config.firstListenerId
        | .sequential first => .sequential first
        | .sessionScoped => .sessionScoped []
        | .listed _ => .external
      hasDispatchHandler := scenario.dispatchHandler.isSome
      hasErrorHandler := scenario.errorHandler.isSome }
  let exchange := Exchange.ofCapacity scenario.config.lifecycleBufferSize.toNat
  let s : Stage :=
    { scenario, machine := { registry }, exchange, observer := exchange.bus.subscribe }
  scenario.directives.foldl (fun s (name, script) => s.add name script) s

end Stage

end ScriptEvents
