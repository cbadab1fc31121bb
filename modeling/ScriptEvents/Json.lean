import ScriptEvents.Text
/-!
JSON tokens, read one character at a time. `none` among the characters is a byte that belongs to no
character; it may stand inside a string, which then has no text.
-/
namespace ScriptEvents.Json

/-- The text of a string literal: none if an escape leaves half a surrogate pair behind, or if bytes
inside belong to no character. -/
abbrev Literal := Option String

inductive Token where
  | beginArray
  | endArray
  | beginObject
  | endObject
  | comma
  | colon
  | null
  | boolean (value : Bool)
  | integer (value : Int)
  -- A number with a fraction or an exponent, or minus zero.
  | real
  | string (text : Literal)
  deriving DecidableEq, Repr

inductive NumberPart where
  | minus
  | zero
  | integer
  | point
  | fraction
  | exponent
  | exponentSign
  | exponentDigits
  deriving DecidableEq, Repr

inductive StringPart where
  | plain
  | backslash
  | hex (owed code : Nat)
  deriving DecidableEq, Repr

structure StringText where
  chars : Option (List Char) := some []
  half : Option Nat := none
  deriving DecidableEq, Repr

namespace StringText

/-- Nothing can make this string a text any more. -/
def spoiled : StringText := { chars := none }

def push (t : StringText) (c : Char) : StringText :=
  if t.half.isSome then spoiled else { t with chars := t.chars.map (c :: ·) }

/-- Adds a code unit of an escape, pairing surrogates. -/
def pushUnit (t : StringText) (unit : Nat) : StringText :=
  match t.half with
  | some half =>
    if 0xdc00 ≤ unit ∧ unit ≤ 0xdfff then
      { chars := t.chars.map (.ofNat (0x10000 + (half - 0xd800) * 0x400 + (unit - 0xdc00)) :: ·) }
    else spoiled
  | none =>
    if 0xd800 ≤ unit ∧ unit ≤ 0xdbff then { t with half := some unit }
    else if 0xdc00 ≤ unit ∧ unit ≤ 0xdfff then spoiled
    else t.push (.ofNat unit)

def literal (t : StringText) : Literal :=
  if t.half.isSome then none else t.chars.map fun chars => .ofList chars.reverse

end StringText

inductive Mode where
  | between
  | word (left : List Char) (token : Token)
  | number (part : NumberPart) (negative : Bool) (magnitude : Nat)
  | string (text : StringText) (part : StringPart)
  deriving DecidableEq, Repr

structure Lexer where
  tokens : List Token := []
  mode : Mode := .between
  deriving DecidableEq, Repr

namespace Lexer

def isBlank (c : Char) : Bool := c == ' ' || c == '\n' || c == '\r' || c == '\t'

def digitValue (c : Char) : Nat := c.toNat - '0'.toNat

def hexValue? (c : Char) : Option Nat :=
  if c.isDigit then some (digitValue c)
  else if 'a' ≤ c ∧ c ≤ 'f' then some (c.toNat - 'a'.toNat + 10)
  else if 'A' ≤ c ∧ c ≤ 'F' then some (c.toNat - 'A'.toNat + 10)
  else none

def between (tokens : List Token) (c : Char) : Option Lexer :=
  if isBlank c then some { tokens }
  else if c.isDigit then
    some { tokens, mode := .number (if c = '0' then .zero else .integer) false (digitValue c) }
  else match c with
    | '[' => some { tokens := .beginArray :: tokens }
    | ']' => some { tokens := .endArray :: tokens }
    | '\x7b' => some { tokens := .beginObject :: tokens }
    | '\x7d' => some { tokens := .endObject :: tokens }
    | ',' => some { tokens := .comma :: tokens }
    | ':' => some { tokens := .colon :: tokens }
    | '"' => some { tokens, mode := .string {} .plain }
    | '-' => some { tokens, mode := .number .minus true 0 }
    | 't' => some { tokens, mode := .word ['r', 'u', 'e'] (.boolean true) }
    | 'f' => some { tokens, mode := .word ['a', 'l', 's', 'e'] (.boolean false) }
    | 'n' => some { tokens, mode := .word ['u', 'l', 'l'] .null }
    | _ => none

/-- The token of a number that ends here, if it may end here. -/
def numberToken? (part : NumberPart) (negative : Bool) (magnitude : Nat) : Option Token :=
  match part with
  | .zero => some (if negative then .real else .integer 0)
  | .integer => some (.integer (if negative then -(magnitude : Int) else magnitude))
  | .fraction | .exponentDigits => some .real
  | _ => none

def numberPart? (part : NumberPart) (c : Char) : Option NumberPart :=
  if c.isDigit then
    match part with
    | .minus => some (if c = '0' then .zero else .integer)
    | .zero => none
    | .integer => some .integer
    | .point | .fraction => some .fraction
    | .exponent | .exponentSign | .exponentDigits => some .exponentDigits
  else match part, c with
    | .zero, '.' | .integer, '.' => some .point
    | .zero, 'e' | .zero, 'E' | .integer, 'e' | .integer, 'E' | .fraction, 'e' | .fraction, 'E' =>
      some .exponent
    | .exponent, '+' | .exponent, '-' => some .exponentSign
    | _, _ => none

def inNumber (tokens : List Token) (part : NumberPart) (negative : Bool) (magnitude : Nat)
    (c : Char) : Option Lexer :=
  match numberPart? part c with
  | some part =>
    let magnitude := if part = .integer then magnitude * 10 + digitValue c else magnitude
    some { tokens, mode := .number part negative magnitude }
  | none =>
    match numberToken? part negative magnitude with
    | some token => between (token :: tokens) c
    | none => none

def shortEscape? : Char → Option Char
  | '"' => some '"'
  | '\\' => some '\\'
  | '/' => some '/'
  | 'b' => some '\x08'
  | 'f' => some '\x0c'
  | 'n' => some '\n'
  | 'r' => some '\r'
  | 't' => some '\t'
  | _ => none

def inString (tokens : List Token) (text : StringText) (part : StringPart) (c : Char) :
    Option Lexer :=
  match part with
  | .plain =>
    if c = '"' then some { tokens := .string text.literal :: tokens }
    else if c = '\\' then some { tokens, mode := .string text .backslash }
    else if c.toNat < 0x20 then none
    else some { tokens, mode := .string (text.push c) .plain }
  | .backslash =>
    if c = 'u' then some { tokens, mode := .string text (.hex 4 0) }
    else (shortEscape? c).map fun e => { tokens, mode := .string (text.push e) .plain }
  | .hex owed code =>
    (hexValue? c).map fun digit =>
      let code := code * 16 + digit
      if owed ≤ 1 then { tokens, mode := .string (text.pushUnit code) .plain }
      else { tokens, mode := .string text (.hex (owed - 1) code) }

def step (l : Lexer) : Option Char → Option Lexer
  | some c =>
    match l.mode with
    | .between => between l.tokens c
    | .word (letter :: left) token =>
      if c ≠ letter then none
      else if left.isEmpty then some { tokens := token :: l.tokens }
      else some { l with mode := .word left token }
    | .word [] token => between (token :: l.tokens) c
    | .number part negative magnitude => inNumber l.tokens part negative magnitude c
    | .string text part => inString l.tokens text part c
  | none =>
    match l.mode with
    | .string _ .plain => some { l with mode := .string .spoiled .plain }
    | _ => none

def finish? (l : Lexer) : Option (List Token) :=
  match l.mode with
  | .between => some l.tokens.reverse
  | .number part negative magnitude =>
    (numberToken? part negative magnitude).map fun token => (token :: l.tokens).reverse
  | _ => none

end Lexer

def tokens? (text : List (Option Char)) : Option (List Token) :=
  (text.foldlM Lexer.step {}).bind Lexer.finish?

end ScriptEvents.Json

/-!
JSON texts as trees. The arrays and objects not yet closed are kept in a list, so nesting of any
depth is read in one pass over the tokens.
-/
namespace ScriptEvents

inductive Json where
  | null
  | boolean (value : Bool)
  | integer (value : Int)
  -- A number with a fraction or an exponent, or minus zero.
  | real
  | string (text : Json.Literal)
  | array (elements : List Json)
  | object (members : List (Json.Literal × Json))

namespace Json

inductive Frame where
  | element (before : List Json)
  | member (before : List (Literal × Json)) (name : Literal)

inductive Reader where
  | value (outer : List Frame)
  | firstElement (outer : List Frame)
  | afterElement (before : List Json) (outer : List Frame)
  | firstName (outer : List Frame)
  | name (before : List (Literal × Json)) (outer : List Frame)
  | colon (before : List (Literal × Json)) (name : Literal) (outer : List Frame)
  | afterMember (before : List (Literal × Json)) (outer : List Frame)
  | finished (result : Json)

namespace Reader

def complete (v : Json) : List Frame → Reader
  | [] => finished v
  | .element before :: outer => afterElement (v :: before) outer
  | .member before key :: outer => afterMember ((key, v) :: before) outer

def begin? (outer : List Frame) : Token → Option Reader
  | .null => some (complete .null outer)
  | .boolean b => some (complete (.boolean b) outer)
  | .integer n => some (complete (.integer n) outer)
  | .real => some (complete .real outer)
  | .string text => some (complete (.string text) outer)
  | .beginArray => some (firstElement outer)
  | .beginObject => some (firstName outer)
  | _ => none

def step : Reader → Token → Option Reader
  | value outer, t => begin? outer t
  | firstElement outer, .endArray => some (complete (.array []) outer)
  | firstElement outer, t => begin? (.element [] :: outer) t
  | afterElement before outer, .comma => some (value (.element before :: outer))
  | afterElement before outer, .endArray => some (complete (.array before.reverse) outer)
  | firstName outer, .endObject => some (complete (.object []) outer)
  | firstName outer, .string text => some (colon [] text outer)
  | name before outer, .string text => some (colon before text outer)
  | colon before text outer, .colon => some (value (.member before text :: outer))
  | afterMember before outer, .comma => some (name before outer)
  | afterMember before outer, .endObject => some (complete (.object before.reverse) outer)
  | _, _ => none

def result? : Reader → Option Json
  | finished v => some v
  | _ => none

end Reader

def ofTokens? (tokens : List Token) : Option Json :=
  (tokens.foldlM Reader.step (.value [])).bind Reader.result?

def parse? (text : List (Option Char)) : Option Json :=
  (tokens? text).bind ofTokens?

end Json

end ScriptEvents

/-!
JSON in its densest form: no blanks, and escapes only where a string needs one.
-/
namespace ScriptEvents.Json.Printer

/-- The quote, the backslash and the controls are escaped, five of the controls by a letter. -/
def escape (c : Char) : List Char :=
  match c with
  | '"' => ['\\', '"']
  | '\\' => ['\\', '\\']
  | '\x08' => ['\\', 'b']
  | '\x0c' => ['\\', 'f']
  | '\n' => ['\\', 'n']
  | '\r' => ['\\', 'r']
  | '\t' => ['\\', 't']
  | c =>
    if c.toNat < 0x20 then
      ['\\', 'u', '0', '0', Nat.digitChar (c.toNat / 16), Nat.digitChar (c.toNat % 16)]
    else [c]

def string (text : String) : String :=
  .ofList ('"' :: text.toList.flatMap escape ++ ['"'])

def boolean (value : Bool) : String := if value then "true" else "false"

def array (elements : List String) : String :=
  "[" ++ ",".intercalate elements ++ "]"

def object (members : List (String × String)) : String :=
  "\x7b" ++ ",".intercalate (members.map fun (name, value) => string name ++ ":" ++ value) ++ "\x7d"

end ScriptEvents.Json.Printer
