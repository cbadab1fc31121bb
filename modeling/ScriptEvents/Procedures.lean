import ScriptEvents.Registry.Basic
/-!
The procedures that scripted code calls. `io-on` registers a repeating listener, `io-once` and
`io-exec` one that fires once, `io-cancel` removes one. Listeners go by a symbol that spells the id.
-/
namespace ScriptEvents

def libraryName : String := "async-io"

inductive NativeProcedure where
  | on
  | once
  | exec
  | cancel
  deriving DecidableEq, Repr

namespace NativeProcedure

def all : List NativeProcedure := [on, once, exec, cancel]

def name : NativeProcedure → String
  | on => "io-on"
  | once => "io-once"
  | exec => "io-exec"
  | cancel => "io-cancel"

def params : NativeProcedure → List String
  | cancel => ["listener"]
  | _ => ["name", "options", "callback"]

def ofName? (name : String) : Option NativeProcedure :=
  all.find? fun procedure => procedure.name == name

open Text.Inspected in
def inspected (p : NativeProcedure) : String :=
  fields "NativeProcedure" [("name", Text.quoted p.name),
    ("params", list (p.params.map Text.quoted)), ("library", Text.quoted libraryName)]

def symbolOf (id : ListenerId) : Value := .symbol (Text.integer id.toInt)

/-- The id that a symbol spells, or that an integral number is; one beyond the 64-bit integers is
taken for the nearest of them. -/
def listenerId? : Value → Except BindingError ListenerId
  | .symbol name =>
    match Text.readInt64? name with
    | some id => .ok id
    | none => .error (.invalidArgument cancel.name ("not a listener id: " ++ name))
  | .number n =>
    match n.toInt? with
    | some id => .ok (Binary64.clampInt64 id)
    | none => .error (.invalidArgument cancel.name "expected symbol, got number")
  | v => .error (.invalidArgument cancel.name ("expected symbol, got " ++ v.typeName))

def registration (p : NativeProcedure) (arguments : Value) (session : Option Session)
    (once : Bool) : Except BindingError Operation :=
  let count := arguments.items.length
  if arguments.isList && 1 ≤ count && count ≤ 3 then .ok (.register arguments session once)
  else .error (.arity p.name "1 to 3" count)

def operation (arguments : Value) (session : Option Session) :
    NativeProcedure → Except BindingError Operation
  | on => on.registration arguments session false
  | once => once.registration arguments session true
  | exec => exec.registration arguments session true
  | cancel =>
    match arguments.toList?.getD [] with
    | [listener] => (listenerId? listener).map .cancel
    | others => .error (.arity cancel.name "1" others.length)

/-- The value of a call, by the outcome of its operation. No procedure starts an operation of
another kind. -/
def valueOf? : Outcome → Option (Except BindingError Value)
  | .registered (.ok registration) => some (.ok (symbolOf registration.id))
  | .registered (.error e) => some (.error (.listener e))
  | .cancelled found => some (.ok (.boolean found))
  | _ => none

end NativeProcedure

end ScriptEvents
