import ScriptEvents.Dictionary
import ScriptEvents.Value
/-!
Values of the host: what directives deliver as the payload of an event.
-/
namespace ScriptEvents

inductive HostValue where
  | null
  | string (text : String)
  | boolean (value : Bool)
  | integer (value : Int64)
  | float (value : Binary64)
  | list (elements : List HostValue)
  -- Entries under distinct names, in ascending order; see `mapOf`.
  | map (entries : List (String × HostValue))
  | bytes (content : List UInt8)
  | evaluator (value : Value)
  deriving Inhabited

namespace HostValue

/-- The map of the entries; of two under one name the later counts. -/
def mapOf (entries : List (String × HostValue)) : HostValue :=
  map (Dictionary.ofList entries).entries

def kind : HostValue → String
  | null => "null"
  | string _ => "string"
  | boolean _ => "boolean"
  | integer _ => "integer"
  | float _ => "float"
  | list _ => "list"
  | map _ => "map"
  | bytes _ => "bytes"
  | evaluator _ => "evaluator value"

def ofOption (toHost : α → HostValue) : Option α → HostValue
  | some value => toHost value
  | none => null

def ofList (toHost : α → HostValue) (values : List α) : HostValue :=
  list (values.map toHost)

mutual

/-- Equality of shape and content, with numbers compared as numbers. An integer is no float. -/
def same : HostValue → HostValue → Bool
  | null, null => true
  | string a, string b => a == b
  | boolean a, boolean b => a == b
  | integer a, integer b => a == b
  | float a, float b => a.sameNumber b
  | list a, list b => sameList a b
  | map a, map b => sameEntries a b
  | bytes a, bytes b => a == b
  | evaluator a, evaluator b => a.same b
  | _, _ => false

def sameList : List HostValue → List HostValue → Bool
  | [], [] => true
  | a :: as, b :: bs => if same a b then sameList as bs else false
  | _, _ => false

def sameEntries : List (String × HostValue) → List (String × HostValue) → Bool
  | [], [] => true
  | (key, a) :: as, (key', b) :: bs =>
    if key == key' && same a b then sameEntries as bs else false
  | _, _ => false

end

open Text.Inspected in
mutual

def inspected : HostValue → String
  | null => "Null"
  | string text => call "String" (Text.quoted text)
  | boolean value => call "Boolean" (flag value)
  | integer n => call "Integer" (Text.integer n.toInt)
  | float n => call "Float" n.marked
  | list elements => call "List" (Text.Inspected.list (inspectedList elements))
  | map entries => call "Map" (Text.Inspected.map (inspectedEntries entries))
  | bytes content =>
    call "Bytes" (Text.Inspected.list (content.map fun byte => Text.integer byte.toNat))
  | evaluator value => call "Evaluator" value.inspected

def inspectedList : List HostValue → List String
  | [] => []
  | h :: hs => inspected h :: inspectedList hs

def inspectedEntries : List (String × HostValue) → List (String × String)
  | [] => []
  | (key, h) :: hs => (Text.quoted key, inspected h) :: inspectedEntries hs

end

end HostValue

/-!
Coercion: a host value becomes a value of the evaluator. Lists become proper lists, element by
element; maps and bytes have no counterpart, and the first one met from left to right refuses the
whole.
-/

inductive CoercionError where
  | unprocessable (kind : String)
  deriving DecidableEq, Repr

def CoercionError.message : CoercionError → String
  | unprocessable kind => "Unprocessable value: " ++ kind

namespace HostValue

mutual

def coerce : HostValue → Except CoercionError Value
  | null => .ok .nil
  | evaluator value => .ok value
  | string text => .ok (.string text)
  | boolean value => .ok (.boolean value)
  | integer n => .ok (.ofInt64 n)
  | float n => .ok (.number n)
  | list elements =>
    match coerceElements elements [] with
    | .ok values => .ok (.ofList values)
    | .error e => .error e
  | map _ => .error (.unprocessable "map")
  | bytes _ => .error (.unprocessable "bytes")

def coerceElements : List HostValue → List Value → Except CoercionError (List Value)
  | [], done => .ok done.reverse
  | h :: hs, done =>
    match coerce h with
    | .ok value => coerceElements hs (value :: done)
    | .error e => .error e

end

/-- The arguments that a coerced payload supplies: the elements of a proper list, so none for `nil`;
anything else is a single argument. -/
def arguments (payload : Value) : List Value :=
  payload.toList?.getD [payload]

def coerceArguments (payload : HostValue) (quote : Bool) : Except CoercionError (List Value) :=
  match payload.coerce with
  | .ok value => .ok (if quote then (arguments value).map Value.quote else arguments value)
  | .error e => .error e

end HostValue

end ScriptEvents
