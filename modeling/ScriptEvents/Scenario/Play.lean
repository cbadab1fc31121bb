import ScriptEvents.Scenario.Stage
/-!
Playing a scenario: commands become operations, requests of the registry start scripts, and
finished scripts become replies. Scripts may start each other without end, so a play has a bound
on its length; the bound is far beyond what any finite play needs.
-/
namespace ScriptEvents

open Scenario

namespace Stage

inductive Cue where
  | serve (request : Request)
  | conclude (answer : Answer)
  | proceed
  | over (answer : Answer)

def answerOf (command : Command) (outcome : Outcome) : Answer :=
  match command, outcome with
  | .call .., outcome =>
    match NativeProcedure.valueOf? outcome with
    | some (.ok value) => .value value
    | some (.error e) => .failed (.binding e)
    | none => .done
  | _, .registered (.ok registration) => .registration registration
  | _, .registered (.error e) => .failed (.listener e)
  | _, .cancelled found => .flag found
  | _, .tornDown report => .report report
  | _, .delivered (.ok value) => .delivery value
  | _, .delivered (.error e) => .failed (.listener e)

def current? (s : Stage) : Option (Action Command) :=
  s.activities.head?.bind (·.current)

def react (s : Stage) : List Effect → Option (Stage × Cue)
  | [] => none
  | .published e :: effects =>
    { s with exchange := { s.exchange with bus := s.exchange.bus.publish e } }.react effects
  | .asked request :: _ => some (s, .serve request)
  | .returned outcome :: _ =>
    s.current?.map fun action => (s, .conclude (answerOf action.command outcome))
  | _ :: effects => s.react effects

def move (s : Stage) (m : Move) : Option (Stage × Cue) :=
  match s.machine.step m with
  | some (machine, effects) => { s with machine }.react effects
  | none => none

def call (s : Stage) (operation : Operation) : Option (Stage × Cue) := s.move (.call operation)

def reply (s : Stage) (r : Reply) : Option (Stage × Cue) := s.move (.reply r)

def conclude (s : Stage) (answer : Answer) : Option (Stage × Cue) := some (s, .conclude answer)

def bundle (name : String) (entries : List (String × DirectiveEntry)) : BundleForm → DirectiveBundle
  | .library => .library (({ name } : DirectiveLibrary).insertAll entries)
  | .map => .map (.ofList entries)
  | .pairs => .pairs entries

def perform (s : Stage) (self : ListenerId) : Command → Option (Stage × Cue)
  | .register request session once => s.call (.register request session once)
  | .call procedure arguments session =>
    match NativeProcedure.ofName? procedure with
    | some p =>
      match p.operation arguments session with
      | .ok operation => s.call operation
      | .error e => s.conclude (.failed (.binding e))
    | none => s.conclude .noProcedure
  | .cancel target => s.call (.cancel (target.resolve self))
  | .cancelAll => { s with tornDown := true }.call (.cancelAll s.registry.listenerIds)
  | .dispatch target payload isFinal => s.call (.dispatch (target.resolve self) payload isFinal)
  | .fire target payload isFinal =>
    match s.dispatcher? (target.resolve self) with
    | some d => s.call (d.dispatch payload isFinal)
    | none => s.conclude .noDispatcher
  | .dispatcher target =>
    s.conclude (match s.dispatcher? (target.resolve self) with
      | some d => .dispatcher d (d.isActive s.registry)
      | none => .noDispatcher)
  | .snapshot target => s.conclude (.snapshot (s.registry.snapshot? (target.resolve self)))
  | .contains target => s.conclude (.flag (s.registry.contains (target.resolve self)))
  | .info => s.conclude (.info s.registry)
  | .task target =>
    s.conclude (match s.latestTask? (target.resolve self) with
      | some handle => .task (handle ∉ s.ended)
      | none => .noTask)
  | .add name script => (s.add name script).conclude .done
  | .addBundle form name scripts =>
    let (s, entries) := s.prepareAll scripts
    let b := bundle name entries form
    (s.change (.addBundle b)).conclude (match b with
      | .library library => .library library
      | _ => .done)
  | .remove name =>
    (s.change (.remove name)).conclude (.removed (Directory.remove s.directory name).1)
  | .names name => s.conclude (.names s.directory (s.directory.contains name))
  | .resolve name =>
    s.conclude (match Directory.resolve s.directory name with
      | .ok entry => .resolved entry
      | .error e => .failed (.resolve e))
  | .observe step =>
    let (exchange, answer) := s.exchange.step step
    { s with exchange }.conclude (match answer with
      | .received (.error e) => .failed (.lifecycle e)
      | .polled (.error e) => .failed (.lifecycle e)
      | answer => .observed answer)

def enter (s : Stage) (key : ScriptKey) (script : Script Command) (role : Role) :
    Option (Stage × Cue) :=
  if s.isExhausted key script then
    some ({ s with activities := { role } :: s.activities }, .proceed)
  else
    some ({ s with
      runs := key :: s.runs
      activities := { role, left := script.actions } :: s.activities }, .proceed)

def unmet? (options : Value) : Option Requirement → Option DirectiveError
  | some .number =>
    match requireNumber options with
    | .ok _ => none
    | .error e => some e
  | some .string =>
    match requireString options with
    | .ok _ => none
    | .error e => some e
  | none => none

def applies (s : Stage) (expression : Value) (rule : EvalRule) (index : Nat) : Bool :=
  !s.isExhausted (.rule index) rule.script &&
    (rule.head.isNone || rule.head == (expression.car?.bind Value.procedure?).map (·.handle))

/-- The id handed out next: the listed ones in turn, the last one for ever. -/
def nextListed (s : Stage) : ListenerId :=
  match s.scenario.allocation with
  | .listed ids => (ids[s.allocated]?.or ids.getLast?).getD .invalid
  | _ => .invalid

def serve (s : Stage) : Request → Option (Stage × Cue)
  | .resolve name =>
    let refused := match s.scenario.lookup with
      | .refusing names => name.key?.bind fun key => names.lookup key
      | _ => none
    s.reply (.resolved (match refused with
      | some got => .error (.invalidName got)
      | none => Directory.resolve s.directory name))
  | .allocate context =>
    let id := s.nextListed
    let s := { s with allocated := s.allocated + 1 }.note (.allocated id context)
    s.reply (.allocated id)
  | .invoke d options id =>
    let s := { s with dispatchers := ⟨id⟩ :: s.dispatchers }.note (.invoked id options)
    let script := s.directiveScript d
    match unmet? options script.requirement with
    | some e => s.reply (.setUp (.error e))
    | none => s.enter (.directive d) script.script (.directive d id)
  | .stop handle =>
    match s.handles[handle.serial]? with
    | some (id, d) =>
      match (s.directiveScript d).handle with
      | some (.script label script _ _) =>
        (s.note (.stopped id label)).enter (.handle d) script (.handle d id)
      | _ => { s with ended := handle :: s.ended }.reply (.stopped (.ok ()))
    | none => none
  | .evaluate expression =>
    let s := s.note (.evaluated expression)
    match s.scenario.rules.zipIdx.find? fun (rule, index) => s.applies expression rule index with
    | some (rule, index) => s.enter (.rule index) rule.script (.evaluator rule expression)
    | none => s.reply (.evaluated (.ok .nil))
  | .handleError listener error =>
    match s.scenario.errorHandler with
    | some handler =>
      (s.note (.errorHandled listener error)).enter .errorHandler handler.script
        (.errorHandler handler listener.id error)
    | none => none
  | .handleDispatch listener payload isFinal =>
    match s.scenario.dispatchHandler with
    | some handler =>
      (s.note (.dispatchHandled listener payload isFinal)).enter .dispatchHandler handler.script
        (.dispatchHandler handler listener.id)
    | none => none

def supply (s : Stage) (d : Directive) (id : ListenerId) : Option (Stage × Cue) :=
  let script := s.directiveScript d
  match script.failure, script.handle with
  | some e, _ => s.reply (.setUp (.error e))
  | none, some _ => { s with handles := s.handles.push (id, d) }.reply (.setUp (.ok true))
  | none, none => s.reply (.setUp (.ok false))

def stopResult (s : Stage) (d : Directive) (result : Except Error Unit) :
    Except DirectiveError Unit :=
  match (s.directiveScript d).handle, result with
  | some (.script _ _ _ true), _ => .ok ()
  | _, .error e => .error (.cancel e.reason)
  | some (.script _ _ (some e) _), _ => .error e
  | _, _ => .ok ()

def Recovery.result (error : EvalError) : Recovery → Except EvalError Value
  | .recover value => .ok value
  | .replace error => .error error
  | .unwrapRaised =>
    match error with
    | .raised value => .ok value
    | error => .error error
  | .propagate => .error error

def leave (s : Stage) (role : Role) (result : Except Error Unit) : Option (Stage × Cue) :=
  match role, result with
  | .scenario, _ => none
  | .directive _ _, .error e => s.reply (.setUp (.error (.setup e.reason)))
  | .directive d id, .ok _ => s.supply d id
  | .handle d _, result => s.reply (.stopped (s.stopResult d result))
  | .evaluator _ _, .error e => s.reply (.evaluated (.error (.failed e.reason)))
  | .evaluator rule expression, .ok _ =>
    s.reply (.evaluated (match rule.failure with
      | some e => .error e
      | none => .ok (rule.result.getD expression)))
  | .errorHandler _ _ _, .error e => s.reply (.errorHandled (.error (.failed e.reason)))
  | .errorHandler handler _ error, .ok _ =>
    s.reply (.errorHandled (Recovery.result error handler.recovery))
  | .dispatchHandler _ _, .error (.listener e) => s.reply (.dispatchHandled (.error e))
  | .dispatchHandler _ _, .error e => s.reply (.dispatchHandled (.error (.handler e.reason)))
  | .dispatchHandler handler _, .ok _ =>
    s.reply (.dispatchHandled (match handler.failure with
      | some reason => .error (.handler reason)
      | none => .ok handler.result))

def advance (s : Stage) : Cue → Option (Stage × Cue)
  | .over answer => some (s, .over answer)
  | .serve request => s.serve request
  | .conclude answer =>
    match s.activities with
    | { role := .scenario, .. } :: _ => some ({ s with activities := [] }, .over answer)
    | { role, current := some action, .. } :: outer =>
      let s := s.note (.acted role.self action.command answer)
      match answer, action.mustSucceed with
      | .failed e, true => { s with activities := outer }.leave role (.error e)
      | _, _ => some (s, .proceed)
    | _ => none
  | .proceed =>
    match s.activities with
    | { role, left := action :: left, .. } :: outer =>
      { s with activities := { role, current := some action, left } :: outer }.perform role.self
        action.command
    | { role, left := [], .. } :: outer => { s with activities := outer }.leave role (.ok ())
    | [] => none

/-- Goes on until the step is over, for at most so many cues. -/
def playUpTo : Nat → Stage → Cue → Option (Stage × Answer)
  | 0, _, _ => none
  | _ + 1, s, .over answer => some (s, answer)
  | n + 1, s, cue =>
    match s.advance cue with
    | some (s, cue) => playUpTo n s cue
    | none => none

structure Report where
  answer : Answer
  log : List LogEntry
  events : List LifecycleEvent
  lapse : Option LifecycleError
  registry : Registry

/-- Sorts by listener, what belongs to none first, and else keeps the order: in which order all
listeners are cancelled is nobody's business. -/
def byListener (listenerId? : α → Option ListenerId) (entries : List α) : List α :=
  entries.mergeSort fun a b =>
    match listenerId? a, listenerId? b with
    | none, _ => true
    | some _, none => false
    | some a, some b => a ≤ b

def play (s : Stage) (command : Command) : Option (Stage × Report) :=
  let s := { s with
    activities := [{ role := .scenario, current := some { command } }]
    log := []
    tornDown := false }
  match (s.perform .invalid command).bind fun (s, cue) => playUpTo 1000000000 s cue with
  | some (s, answer) =>
    let (observer, events, lapse) := s.exchange.bus.readAll s.observer
    let log := s.log.reverse
    some ({ s with observer },
      { answer, lapse, registry := s.registry
        log := if s.tornDown then byListener (·.listenerId?) log else log
        events := if s.tornDown then byListener (·.listenerId?) events else events })
  | none => none

def playAll (s : Stage) : List Command → List Report
  | [] => []
  | command :: commands =>
    match s.play command with
    | some (s, report) => report :: s.playAll commands
    | none => []

end Stage

def Scenario.play (scenario : Scenario) : List Stage.Report :=
  (Stage.ofScenario scenario).playAll scenario.steps

end ScriptEvents
