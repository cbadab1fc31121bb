import ScriptEvents.Registry.Basic
/-!
Scenarios: a registry whose collaborators act by script. A script is a list of commands to the same
registry, so what a collaborator does when it is entered, and again while it is entered, is data.
-/
namespace ScriptEvents.Scenario

structure Action (κ : Type) where
  command : κ
  mustSucceed : Bool := false

structure Script (κ : Type) where
  actions : List (Action κ) := []
  times : Option Nat := none
  deriving Inhabited

inductive Requirement where
  | number
  | string
  deriving DecidableEq, Repr

inductive HandleScript (κ : Type) where
  | task
  -- Runs a script and then fails, unless it is infallible: then even the script's failure counts as
  -- success.
  | script (label : Option String) (script : Script κ) (failure : Option DirectiveError)
      (infallible : Bool)
  deriving Inhabited

structure DirectiveScript (κ : Type) where
  requirement : Option Requirement := none
  script : Script κ := {}
  failure : Option DirectiveError := none
  handle : Option (HandleScript κ) := none

inductive EntryScript (κ : Type) where
  | ignore
  | ofBool (value : Bool)
  | value (value : HostValue)
  | directive (directive : DirectiveScript κ)
  deriving Inhabited

inductive Target where
  | own
  | listener (id : ListenerId)
  deriving DecidableEq, Repr

inductive BundleForm where
  | library
  | map
  | pairs
  deriving DecidableEq, Repr

inductive Command where
  | register (request : Value) (session : Option Session) (once : Bool)
  | call (procedure : String) (arguments : Value) (session : Option Session)
  | cancel (target : Target)
  | cancelAll
  | dispatch (target : Target) (payload : HostValue) (isFinal : Bool)
  -- A dispatch by the route that a directive was given when it was invoked for that id.
  | fire (target : Target) (payload : HostValue) (isFinal : Bool)
  | dispatcher (target : Target)
  | snapshot (target : Target)
  | contains (target : Target)
  | info
  | task (target : Target)
  | add (name : String) (entry : EntryScript Command)
  | addBundle (form : BundleForm) (name : String) (entries : List (String × EntryScript Command))
  | remove (name : String)
  | names (name : String)
  | resolve (name : Value)
  | observe (step : Exchange.Step)
  deriving Inhabited

structure EvalRule where
  head : Option UInt64 := none
  script : Script Command := {}
  failure : Option EvalError := none
  result : Option Value := none

inductive Recovery where
  | recover (value : Value)
  | replace (error : EvalError)
  | unwrapRaised
  | propagate

structure ErrorHandler where
  script : Script Command := {}
  recovery : Recovery := .propagate

structure DispatchHandler where
  script : Script Command := {}
  failure : Option String := none
  result : Option Value := none

inductive Allocation where
  | configured
  | sequential (first : ListenerId)
  | sessionScoped
  | listed (ids : List ListenerId)

inductive Lookup where
  | shared
  | refusing (names : List (String × String))
  | absent

end Scenario

structure Scenario where
  config : Config := {}
  directives : List (String × Scenario.EntryScript Scenario.Command) := []
  rules : List Scenario.EvalRule := []
  errorHandler : Option Scenario.ErrorHandler := none
  dispatchHandler : Option Scenario.DispatchHandler := none
  allocation : Scenario.Allocation := .configured
  lookup : Scenario.Lookup := .shared
  steps : List Scenario.Command := []

end ScriptEvents
