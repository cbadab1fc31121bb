import ScriptEvents.HostValue
/-!
Every way in which an operation fails, with one wording each. `Error` gathers them all; an error
that was caused by another one keeps it, and `Error.causes` lists the chain.
-/
namespace ScriptEvents

abbrev ListenerId := Int64

/-- The id that no listener has. -/
def ListenerId.invalid : ListenerId := -1

inductive ResolveError where
  | invalidName (got : String)
  deriving DecidableEq, Repr

def ResolveError.message : ResolveError → String
  | invalidName got => "Invalid argument: event name must be a string or symbol, got " ++ got

inductive DirectiveError where
  | invalidOptions (expected got : String)
  | setup (reason : String)
  | cancel (reason : String)
  deriving DecidableEq, Repr

def DirectiveError.message : DirectiveError → String
  | invalidOptions expected got =>
    "Invalid directive options: expected " ++ expected ++ ", got " ++ got
  | setup reason => "Directive setup failed: " ++ reason
  | cancel reason => "Cancellation failed: " ++ reason

inductive EvalError where
  | failed (reason : String)
  | raised (value : Value)
  | notProcedure (what : String)
  deriving DecidableEq, Repr

def EvalError.message : EvalError → String
  | failed reason => "Evaluation failed: " ++ reason
  | raised value => "Raised: " ++ value.text
  | notProcedure what => "Not a procedure: " ++ what

inductive LifecycleError where
  | lagged (count : Nat)
  | receiveFailed (reason : String)
  deriving DecidableEq, Repr

def LifecycleError.message : LifecycleError → String
  | lagged count => "Lifecycle event lagged: " ++ Text.integer count
  | receiveFailed reason => "Lifecycle event receive failed: " ++ reason

inductive ListenerError where
  | invalidRequest (reason : String)
  | invalidCallback (got : String)
  | resolve (cause : ResolveError)
  | unknownDirective (name : String)
  | invalidDirective (name : String)
  | invalidId (id : ListenerId)
  | directive (name : String) (cause : DirectiveError)
  | coercion (cause : CoercionError)
  | evaluation (id : ListenerId) (cause : EvalError)
  | handler (reason : String)
  deriving DecidableEq, Repr

namespace ListenerError

def message : ListenerError → String
  | invalidRequest reason => "Invalid request: " ++ reason
  | invalidCallback got => "Invalid callback: expected procedure, got " ++ got
  | resolve cause => cause.message
  | unknownDirective name => "Unknown IO directive: " ++ name
  | invalidDirective name => "Directive must be a function: " ++ name
  | invalidId id => "Listener id " ++ Text.integer id.toInt ++ " is invalid or already in use"
  | directive name cause => "Directive " ++ name ++ " failed: " ++ cause.message
  | coercion cause => cause.message
  | evaluation id cause =>
    "Callback of listener " ++ Text.integer id.toInt ++ " failed: " ++ cause.message
  | handler reason => "Dispatch handler failed: " ++ reason

/-- What lies behind the error; an error that speaks for its cause is not listed apart from it. -/
def causes : ListenerError → List String
  | directive _ cause => [cause.message]
  | evaluation _ cause => [cause.message]
  | _ => []

end ListenerError

inductive BindingError where
  | arity (procedure expected : String) (got : Nat)
  | invalidArgument (procedure reason : String)
  | listener (cause : ListenerError)
  deriving DecidableEq, Repr

namespace BindingError

def message : BindingError → String
  | arity procedure expected got =>
    procedure ++ ": expected " ++ expected ++ " argument(s), got " ++ Text.integer got
  | invalidArgument procedure reason => procedure ++ ": invalid argument: " ++ reason
  | listener cause => cause.message

def causes : BindingError → List String
  | listener cause => cause.causes
  | _ => []

end BindingError

inductive Error where
  | listener (cause : ListenerError)
  | resolve (cause : ResolveError)
  | coercion (cause : CoercionError)
  | directive (cause : DirectiveError)
  | eval (cause : EvalError)
  | binding (cause : BindingError)
  | lifecycle (cause : LifecycleError)
  | internal (reason : String)
  deriving DecidableEq, Repr

namespace Error

def reason : Error → String
  | listener cause => cause.message
  | resolve cause => cause.message
  | coercion cause => cause.message
  | directive cause => cause.message
  | eval cause => cause.message
  | binding cause => cause.message
  | lifecycle cause => cause.message
  | internal reason => reason

def area : Error → String
  | listener _ => "Listener"
  | resolve _ => "Resolve"
  | coercion _ => "Coercion"
  | directive _ => "Directive"
  | eval _ => "Eval"
  | binding _ => "Binding"
  | lifecycle _ => "Lifecycle"
  | internal _ => "Internal"

def message (e : Error) : String :=
  e.area ++ " error: " ++ e.reason

def causes : Error → List String
  | listener cause => cause.message :: cause.causes
  | binding cause => cause.message :: cause.causes
  | internal _ => []
  | e => [e.reason]

end Error

end ScriptEvents
