import ScriptEvents.Listener
/-!
Directives are the host's half of an event source: named, installed in bundles, invoked once for
every listener. Here they are references; what one does when invoked is up to the host.
-/
namespace ScriptEvents

structure Directive where
  reference : Nat
  deriving DecidableEq, Repr

inductive DirectiveEntry where
  | directive (target : Directive)
  | ignore
  | notCallable (value : HostValue)
  deriving Inhabited

namespace DirectiveEntry

/-- Marks a name as ignored by `false`; `true` is installed as a plain value. -/
def ofBool (value : Bool) : DirectiveEntry :=
  if value then notCallable (.boolean true) else ignore

def isCallable : DirectiveEntry → Bool
  | directive _ => true
  | _ => false

open Text.Inspected in
def inspected : DirectiveEntry → String
  | directive _ => call "Directive" "<function>"
  | ignore => "Ignore"
  | notCallable value => call "NotCallable" value.inspected

end DirectiveEntry

namespace DirectiveError

def ofOptions (expected : String) (options : Value) : DirectiveError :=
  invalidOptions expected options.typeName

end DirectiveError

def requireNumber : Value → Except DirectiveError Binary64
  | .number n => .ok n
  | options => .error (.ofOptions "number" options)

def requireString : Value → Except DirectiveError String
  | .string text => .ok text
  | options => .error (.ofOptions "string" options)

structure DirectiveLibrary where
  name : String
  directives : Dictionary DirectiveEntry := .empty

namespace DirectiveLibrary

def insert (l : DirectiveLibrary) (name : String) (entry : DirectiveEntry) : DirectiveLibrary :=
  { l with directives := l.directives.insert name entry }

def insertAll (l : DirectiveLibrary) (entries : List (String × DirectiveEntry)) :
    DirectiveLibrary :=
  entries.foldl (fun l (name, entry) => l.insert name entry) l

def size (l : DirectiveLibrary) : Nat := l.directives.size

def isEmpty (l : DirectiveLibrary) : Bool := l.directives.isEmpty

open Text.Inspected in
def inspected (l : DirectiveLibrary) : String :=
  fields "DirectiveLibrary" [("name", Text.quoted l.name),
    ("directives",
      map (l.directives.entries.map fun (name, entry) => (Text.quoted name, entry.inspected)))]

end DirectiveLibrary

/-!
The directory says which directive an event name stands for. A name may be given as a string or as a
symbol; the last write under it counts.
-/

inductive DirectiveBundle where
  | library (library : DirectiveLibrary)
  | map (directives : Dictionary DirectiveEntry)
  | pairs (entries : List (String × DirectiveEntry))

def DirectiveBundle.directives : DirectiveBundle → Dictionary DirectiveEntry
  | library l => l.directives
  | map directives => directives
  | pairs entries => .ofList entries

abbrev Directory := Dictionary DirectiveEntry

namespace Directory

inductive Change where
  | add (name : String) (entry : DirectiveEntry)
  | addBundle (bundle : DirectiveBundle)
  | remove (name : String)

def apply (d : Directory) : Change → Directory
  | .add name entry => d.insert name entry
  | .addBundle bundle => d.insertAll bundle.directives.entries
  | .remove name => d.erase name

def remove (d : Directory) (name : String) : Option DirectiveEntry × Directory :=
  (d.find? name, apply d (.remove name))

def ofBundle (bundle : DirectiveBundle) : Directory :=
  apply .empty (.addBundle bundle)

def resolve (d : Directory) (name : Value) : Except ResolveError (Option DirectiveEntry) :=
  match name.key? with
  | some key => .ok (d.find? key)
  | none => .error (.invalidName name.typeName)

end Directory

end ScriptEvents
