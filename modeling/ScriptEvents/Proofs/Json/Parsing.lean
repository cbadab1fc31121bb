import ScriptEvents.Json
import ScriptEvents.Proofs.Json.Lexing
/-!
Parsing: the tokens of a value are read as that value, at any depth, and so is every text that
spells them.
-/
namespace ScriptEvents.Json

mutual

def tokens : Json → List Token
  | .null => [.null]
  | .boolean value => [.boolean value]
  | .integer n => [.integer n]
  | .real => [.real]
  | .string text => [.string text]
  | .array [] => [.beginArray, .endArray]
  | .array (v :: rest) => .beginArray :: (v.tokens ++ elementTokens rest)
  | .object [] => [.beginObject, .endObject]
  | .object ((name, v) :: rest) =>
    .beginObject :: .string name :: .colon :: (v.tokens ++ memberTokens rest)

/-- The tokens of an array behind its first element. -/
def elementTokens : List Json → List Token
  | [] => [.endArray]
  | v :: rest => .comma :: (v.tokens ++ elementTokens rest)

def memberTokens : List (Literal × Json) → List Token
  | [] => [.endObject]
  | (name, v) :: rest => .comma :: .string name :: .colon :: (v.tokens ++ memberTokens rest)

end

namespace Reader

def read? (r : Reader) (ts : List Token) : Option Reader := ts.foldlM step r

theorem read?_cons (r : Reader) (t : Token) (ts : List Token) :
    r.read? (t :: ts) = (r.step t).bind (read? · ts) := rfl

theorem read?_firstElement (v : Json) (outer : List Frame) (rest : List Token) :
    (firstElement outer).read? (v.tokens ++ rest) =
      (value (.element [] :: outer)).read? (v.tokens ++ rest) := by
  match v with
  | .null | .boolean _ | .integer _ | .real | .string _ | .array [] | .array (_ :: _)
  | .object [] | .object (_ :: _) => rfl

mutual

theorem read?_tokens (v : Json) (outer : List Frame) (rest : List Token) :
    (value outer).read? (v.tokens ++ rest) = (complete v outer).read? rest := by
  match v with
  | .null | .boolean _ | .integer _ | .real | .string _ | .array [] | .object [] => rfl
  | .array (v :: later) =>
    rw [tokens, List.cons_append, List.append_assoc, read?_cons]
    change (firstElement outer).read? _ = _
    rw [read?_firstElement, read?_tokens]
    exact read?_elementTokens later [v] outer rest
  | .object ((key, v) :: later) =>
    rw [tokens, List.cons_append, List.cons_append, List.cons_append, List.append_assoc]
    change (value (.member [] key :: outer)).read? _ = _
    rw [read?_tokens]
    exact read?_memberTokens later [(key, v)] outer rest

theorem read?_elementTokens (vs : List Json) (before : List Json) (outer : List Frame)
    (rest : List Token) :
    (afterElement before outer).read? (elementTokens vs ++ rest) =
      (complete (.array (before.reverse ++ vs)) outer).read? rest := by
  match vs with
  | [] =>
    rw [List.append_nil]
    rfl
  | v :: later =>
    rw [elementTokens, List.cons_append, List.append_assoc]
    change (value (.element before :: outer)).read? _ = _
    rw [read?_tokens]
    refine (read?_elementTokens later (v :: before) outer rest).trans ?_
    rw [List.reverse_cons, List.append_assoc, List.singleton_append]

theorem read?_memberTokens (members : List (Literal × Json)) (before : List (Literal × Json))
    (outer : List Frame) (rest : List Token) :
    (afterMember before outer).read? (memberTokens members ++ rest) =
      (complete (.object (before.reverse ++ members)) outer).read? rest := by
  match members with
  | [] =>
    rw [List.append_nil]
    rfl
  | (key, v) :: later =>
    rw [memberTokens, List.cons_append, List.cons_append, List.cons_append, List.append_assoc]
    change (value (.member before key :: outer)).read? _ = _
    rw [read?_tokens]
    refine (read?_memberTokens later ((key, v) :: before) outer rest).trans ?_
    rw [List.reverse_cons, List.append_assoc, List.singleton_append]

end

end Reader

theorem ofTokens?_tokens (v : Json) : ofTokens? v.tokens = some v := by
  have h := Reader.read?_tokens v [] []
  rw [List.append_nil] at h
  exact Option.bind_eq_some_iff.2 ⟨_, h, rfl⟩

/-- A value is read from any text that spells its tokens, wherever that has blanks. -/
theorem parse?_of_spells {v : Json} {cs : List Char} (spells : Spells v.tokens cs) :
    parse? (cs.map some) = some v := by
  rw [parse?, tokens?_of_spells spells]
  exact ofTokens?_tokens v

end ScriptEvents.Json
