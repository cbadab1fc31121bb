import ScriptEvents.Number
/-!
Values of the embedded evaluator. Lists are chains of pairs; a chain that ends in `nil` is a
proper list. `ofList` and `toList?` are inverse to each other on proper lists, and `items` reads
the elements of any chain up to its end.
-/
namespace ScriptEvents

structure Procedure where
  handle : UInt64
  name : Option String := none
  deriving DecidableEq, Repr

inductive Value where
  | nil
  | boolean (value : Bool)
  | number (value : Binary64)
  | string (text : String)
  | symbol (name : String)
  | pair (car cdr : Value)
  | procedure (reference : Procedure)
  deriving DecidableEq, Repr, Inhabited

namespace Value

def ofInt64 (n : Int64) : Value := number (.ofInt64 n)

def ofListOnto (values : List Value) (tail : Value) : Value :=
  values.foldr pair tail

def ofList (values : List Value) : Value :=
  ofListOnto values nil

def quote (value : Value) : Value :=
  ofList [symbol "quote", value]

def typeName : Value → String
  | nil => "nil"
  | boolean _ => "boolean"
  | number _ => "number"
  | string _ => "string"
  | symbol _ => "symbol"
  | pair _ _ => "pair"
  | procedure _ => "procedure"

def isNil (v : Value) : Bool := v == nil

def procedure? : Value → Option Procedure
  | procedure p => some p
  | _ => none

def car? : Value → Option Value
  | pair car _ => some car
  | _ => none

def cdr? : Value → Option Value
  | pair _ cdr => some cdr
  | _ => none

def key? : Value → Option String
  | string text => some text
  | symbol name => some name
  | _ => none

/-- The cars of the chain behind those already taken, which stand in reverse. -/
def itemsAfter (taken : List Value) : Value → List Value
  | pair car cdr => itemsAfter (car :: taken) cdr
  | _ => taken.reverse

/-- The cars of a chain of pairs, up to the first thing that is no pair. -/
def items (v : Value) : List Value :=
  itemsAfter [] v

/-- What a chain of pairs ends in; the value itself if it is no pair. -/
def lastTail : Value → Value
  | pair _ cdr => lastTail cdr
  | v => v

def isList : Value → Bool
  | nil => true
  | pair _ cdr => isList cdr
  | _ => false

def toList? (v : Value) : Option (List Value) :=
  if v.isList then some v.items else none

/-- Equality of shape and content, with numbers compared as numbers: no NaN equals itself, and the
zeros are equal. -/
def same : Value → Value → Bool
  | nil, nil => true
  | boolean a, boolean b => a == b
  | number a, number b => a.sameNumber b
  | string a, string b => a == b
  | symbol a, symbol b => a == b
  | pair a b, pair c d => if same a c then same b d else false
  | procedure a, procedure b => a == b
  | _, _ => false

theorem itemsAfter_eq (taken : List Value) (v : Value) :
    itemsAfter taken v = taken.reverse ++ v.items := by
  induction v generalizing taken with
  | pair car cdr _ ih => simp [items, itemsAfter, ih (car :: taken), ih [car]]
  | _ => simp [items, itemsAfter]

@[simp] theorem items_pair (car cdr : Value) : (pair car cdr).items = car :: cdr.items := by
  simp [items, itemsAfter, itemsAfter_eq [car]]

@[simp] theorem items_nil : nil.items = [] := rfl

@[simp] theorem ofListOnto_nil (tail : Value) : ofListOnto [] tail = tail := rfl

@[simp] theorem ofListOnto_cons (v : Value) (vs : List Value) (tail : Value) :
    ofListOnto (v :: vs) tail = pair v (ofListOnto vs tail) := rfl

@[simp] theorem items_ofList (vs : List Value) : (ofList vs).items = vs := by
  induction vs with
  | nil => rfl
  | cons v vs ih => simpa [ofList] using ih

@[simp] theorem isList_ofList (vs : List Value) : (ofList vs).isList = true := by
  induction vs with
  | nil => rfl
  | cons v vs ih => simpa [ofList, isList] using ih

theorem toList?_ofList (vs : List Value) : (ofList vs).toList? = some vs := by
  simp [toList?]

theorem ofList_items {v : Value} (h : v.isList = true) : ofList v.items = v := by
  induction v with
  | nil => rfl
  | pair car cdr _ ih => simpa [ofList] using ih (by simpa [isList] using h)
  | _ => simp [isList] at h

end Value

/-!
Values as text. `text` is the notation of the evaluator; `inspected` names every constructor and is
meant for diagnostics.
-/

/-- An integer below `10 ^ 15` in absolute value as an integer, so that both zeros are `0`; any
other number in the plain layout. -/
def Binary64.numeral (x : Binary64) : String :=
  match x.toInt? with
  | some n => if n.natAbs < 1000000000000000 then Text.integer n else x.plain
  | none => x.plain

namespace Value

/-- The text of everything but a pair. A procedure shows its name, or its handle if it has none. -/
def atomText : Value → String
  | nil => "()"
  | boolean true => "#t"
  | boolean false => "#f"
  | number n => n.numeral
  | string text => Text.quoted text
  | symbol name => name
  | procedure p => "#<procedure " ++ p.name.getD (Text.integer p.handle.toNat) ++ ">"
  | pair _ _ => ""

mutual

def write : Value → String → String
  | pair car cdr, out => writeTail cdr (write car (out.push '('))
  | v, out => out ++ v.atomText

def writeTail : Value → String → String
  | pair car cdr, out => writeTail cdr (write car (out.push ' '))
  | nil, out => out.push ')'
  | v, out => (out ++ " . " ++ v.atomText).push ')'

end

/-- The notation of the evaluator: a list between parentheses, with a point before an end that is
not `nil`. -/
def text (v : Value) : String :=
  write v ""

end Value

open Text.Inspected

def Procedure.inspected (p : Procedure) : String :=
  fields "Procedure" [("handle", Text.integer p.handle.toNat), ("name", option Text.quoted p.name)]

def Value.inspected : Value → String
  | nil => "Nil"
  | boolean value => call "Boolean" (flag value)
  | number n => call "Number" n.marked
  | string text => call "String" (Text.quoted text)
  | symbol name => call "Symbol" (Text.quoted name)
  | pair car cdr => call "Pair" (car.inspected ++ ", " ++ cdr.inspected)
  | procedure p => call "Procedure" p.inspected

end ScriptEvents
