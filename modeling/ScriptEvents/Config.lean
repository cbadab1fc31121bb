import ScriptEvents.Error
import ScriptEvents.Json
import ScriptEvents.Text
/-!
The settings of a registry, and their JSON form: an object whose members may be left out, or an
array that gives them in order. Members of other names are skipped; none may be given twice.
-/
namespace ScriptEvents

structure Config where
  firstListenerId : ListenerId := 0
  quoteArguments : Bool := true
  lifecycleBufferSize : UInt64 := 256
  ignoredDirectives : List String := []
  deriving DecidableEq, Repr

namespace Config

inductive Field where
  | firstListenerId
  | quoteArguments
  | lifecycleBufferSize
  | ignoredDirectives
  deriving DecidableEq, Repr

namespace Field

def all : List Field :=
  [firstListenerId, quoteArguments, lifecycleBufferSize, ignoredDirectives]

def name : Field → String
  | firstListenerId => "first_listener_id"
  | quoteArguments => "quote_arguments"
  | lifecycleBufferSize => "lifecycle_buffer_size"
  | ignoredDirectives => "ignored_directives"

def ofName? (name : String) : Option Field :=
  all.find? fun field => field.name == name

end Field

def valueText (c : Config) : Field → String
  | .firstListenerId => Text.integer c.firstListenerId.toInt
  | .quoteArguments => Json.Printer.boolean c.quoteArguments
  | .lifecycleBufferSize => Text.integer c.lifecycleBufferSize.toNat
  | .ignoredDirectives => Json.Printer.array (c.ignoredDirectives.map Json.Printer.string)

def textOf (c : Config) (fields : List Field) : String :=
  Json.Printer.object (fields.map fun field => (field.name, c.valueText field))

def text (c : Config) : String :=
  c.textOf Field.all

open Text.Inspected in
def inspected (c : Config) : String :=
  fields "RegistryConfig" [
    ("first_listener_id", Text.integer c.firstListenerId.toInt),
    ("quote_arguments", flag c.quoteArguments),
    ("lifecycle_buffer_size", Text.integer c.lifecycleBufferSize.toNat),
    ("ignored_directives", list (c.ignoredDirectives.map Text.quoted))]

def name? : Json → Option String
  | .string text => text
  | _ => none

def set? (c : Config) : Field → Json → Option Config
  | .firstListenerId, .integer n =>
    if Int64.minValue.toInt ≤ n ∧ n ≤ Int64.maxValue.toInt then
      some { c with firstListenerId := .ofInt n }
    else none
  | .quoteArguments, .boolean value => some { c with quoteArguments := value }
  | .lifecycleBufferSize, .integer n =>
    if 0 ≤ n ∧ n.toNat < UInt64.size then
      some { c with lifecycleBufferSize := .ofNat n.toNat }
    else none
  | .ignoredDirectives, .array elements =>
    (elements.mapM name?).map fun names => { c with ignoredDirectives := names }
  | _, _ => none

def setMembers? (c : Config) (seen : List Field) : List (Json.Literal × Json) → Option Config
  | [] => some c
  | (none, _) :: _ => none
  | (some name, value) :: members =>
    match Field.ofName? name with
    | some field =>
      if field ∈ seen then none
      else match c.set? field value with
        | some c => c.setMembers? (field :: seen) members
        | none => none
    | none => c.setMembers? seen members

def setElements? (c : Config) : List Field → List Json → Option Config
  | _, [] => some c
  | [], _ :: _ => none
  | field :: fields, value :: elements =>
    match c.set? field value with
    | some c => c.setElements? fields elements
    | none => none

def ofJson? : Json → Option Config
  | .object members => setMembers? {} [] members
  | .array elements => setElements? {} Field.all elements
  | _ => none

/-- The settings, or the error that what was to be read spells none. What exactly is wrong with it
is not said. -/
def ofJson (source : String) (json : Option Json) : Except Error Config :=
  match json.bind ofJson? with
  | some c => .ok c
  | none => .error (.internal ("Failed to parse " ++ source ++ ": "))

def ofText (text : String) : Except Error Config :=
  ofJson "config" (Json.parse? (text.toList.map some))

/-- Reads settings from the bytes of a file, or from none if there is no such file. -/
def ofFile : Option (List UInt8) → Except Error Config
  | some bytes => ofJson "config file" (Json.parse? (Text.Utf8.decode bytes))
  | none => .error (.internal "Failed to open config file: ")

end Config

end ScriptEvents
