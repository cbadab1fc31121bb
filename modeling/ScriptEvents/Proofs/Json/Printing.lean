import ScriptEvents.Proofs.Json.Parsing
/-!
Printing: what is printed of values spells their tokens, so it is read as those values.
-/
namespace ScriptEvents.Json

/-- The text spells the tokens, in front of anything that keeps apart. -/
def Prints (item : List Token) (text : String) : Prop :=
  ∀ ts cs, (∀ c ∈ cs.head?, Apart c) → Spells ts cs → Spells (item ++ ts) (text.toList ++ cs)

theorem Prints.spells {item : List Token} {text : String} (prints : Prints item text) :
    Spells item text.toList := by
  simpa using prints [] [] nofun .nil

theorem prints_boolean (value : Bool) : Prints (tokens (.boolean value)) (Printer.boolean value) :=
  fun _ _ _ => .token (.boolean value) nofun

theorem prints_integer (n : Int) : Prints (tokens (.integer n)) (Text.integer n) := by
  intro ts cs apart rest
  rw [Text.integer, String.toList_ofList]
  exact .token (.integer n) (fun _ _ => apart) rest

theorem prints_string (text : String) :
    Prints (tokens (.string (some text))) (Printer.string text) :=
  fun _ _ _ => .token (.string text) nofun

theorem prints_member {v : Json} {text : String} (name : String) (prints : Prints v.tokens text) :
    Prints (.string (some name) :: .colon :: v.tokens) (Printer.string name ++ ":" ++ text) := by
  intro ts cs apart rest
  rw [String.toList_append, String.toList_append, List.append_assoc, List.append_assoc]
  exact .token (.string name) nofun (.token .colon nofun (prints ts cs apart rest))

def strung : List (List Token) → List Token
  | [] => []
  | item :: later => item ++ later.flatMap (.comma :: ·)

theorem elementTokens_eq (vs : List Json) :
    elementTokens vs = (vs.map tokens).flatMap (.comma :: ·) ++ [.endArray] := by
  induction vs with
  | nil => rfl
  | cons v vs ih =>
    rw [elementTokens, ih, List.map_cons, List.flatMap_cons, List.cons_append, List.cons_append,
      List.append_assoc]

theorem tokens_array (vs : List Json) :
    tokens (.array vs) = .beginArray :: (strung (vs.map tokens) ++ [.endArray]) := by
  cases vs with
  | nil => rfl
  | cons v vs => rw [tokens, elementTokens_eq, List.map_cons, strung, List.append_assoc]

def tokensOfMember (m : Literal × Json) : List Token := .string m.1 :: .colon :: m.2.tokens

theorem memberTokens_eq (members : List (Literal × Json)) :
    memberTokens members = (members.map tokensOfMember).flatMap (.comma :: ·) ++ [.endObject] := by
  induction members with
  | nil => rfl
  | cons m members ih =>
    rw [memberTokens, ih, List.map_cons, List.flatMap_cons]
    simp only [tokensOfMember, List.cons_append, List.append_assoc]

theorem tokens_object (members : List (Literal × Json)) :
    tokens (.object members) =
      .beginObject :: (strung (members.map tokensOfMember) ++ [.endObject]) := by
  cases members with
  | nil => rfl
  | cons m members =>
    rw [tokens, memberTokens_eq, List.map_cons, strung]
    simp only [tokensOfMember, List.cons_append, List.append_assoc]

theorem toList_intercalate_comma (first : String) (later : List String) :
    (",".intercalate (first :: later)).toList =
      first.toList ++ later.flatMap fun text => ',' :: text.toList := by
  induction later generalizing first with
  | nil => simp
  | cons second later ih =>
    rw [List.flatMap_cons, List.cons_append, ← ih second]
    simp [String.toList_intercalate]

variable {α : Type} {item : α → List Token} {name text : α → String} {value : α → Json}
  {ts : List Token} {cs : List Char}

theorem spells_later {later : List α} (prints : ∀ x ∈ later, Prints (item x) (text x))
    (apart : ∀ c ∈ cs.head?, Apart c) (rest : Spells ts cs) :
    Spells ((later.map item).flatMap (.comma :: ·) ++ ts)
        ((later.map text).flatMap (fun text => ',' :: text.toList) ++ cs) ∧
      ∀ c ∈ ((later.map text).flatMap (fun text => ',' :: text.toList) ++ cs).head?, Apart c := by
  induction later with
  | nil => exact ⟨rest, apart⟩
  | cons x later ih =>
    rw [List.forall_mem_cons] at prints
    obtain ⟨spells, apart⟩ := ih prints.2
    simp only [List.map_cons, List.flatMap_cons, List.cons_append, List.append_assoc]
    constructor
    · exact .mark .comma nofun (prints.1 _ _ apart spells)
    · rintro _ ⟨⟩
      decide

theorem prints_strung {xs : List α} (prints : ∀ x ∈ xs, Prints (item x) (text x)) :
    Prints (strung (xs.map item)) (",".intercalate (xs.map text)) := by
  intro ts cs apart rest
  cases xs with
  | nil => exact rest
  | cons x later =>
    rw [List.forall_mem_cons] at prints
    obtain ⟨spells, apart⟩ := spells_later prints.2 apart rest
    rw [List.map_cons, List.map_cons, strung, toList_intercalate_comma, List.append_assoc,
      List.append_assoc]
    exact prints.1 _ _ apart spells

theorem spells_bracketed {opening closing : Token} {left right : Char} {tokens : List Token}
    {inner : String} (opens : opening.Written [left]) (closes : closing.Written [right])
    (opensOnly : ∀ n, opening ≠ .integer n) (closesOnly : ∀ n, closing ≠ .integer n)
    (apart : Apart right) (prints : Prints tokens inner) (rest : Spells ts cs) :
    Spells (opening :: (tokens ++ closing :: ts)) (left :: (inner.toList ++ right :: cs)) := by
  have closed : Spells (closing :: ts) (right :: cs) := .mark closes closesOnly rest
  refine .mark opens opensOnly (prints _ _ ?_ closed)
  rintro _ ⟨⟩
  exact apart

theorem prints_array {xs : List α} (prints : ∀ x ∈ xs, Prints (value x).tokens (text x)) :
    Prints (tokens (.array (xs.map value))) (Printer.array (xs.map text)) := by
  intro ts cs _ rest
  rw [tokens_array, List.map_map, Printer.array, String.toList_append, String.toList_append]
  simp only [List.cons_append, List.append_assoc]
  exact spells_bracketed .beginArray .endArray nofun nofun (by decide) (prints_strung prints) rest

theorem prints_object {xs : List α} (prints : ∀ x ∈ xs, Prints (value x).tokens (text x)) :
    Prints (tokens (.object (xs.map fun x => (some (name x), value x))))
      (Printer.object (xs.map fun x => (name x, text x))) := by
  intro ts cs _ rest
  have members : ∀ x ∈ xs, Prints (tokensOfMember (some (name x), value x))
      (Printer.string (name x) ++ ":" ++ text x) :=
    fun x hx => prints_member (name x) (prints x hx)
  rw [tokens_object, List.map_map, Printer.object, List.map_map, String.toList_append,
    String.toList_append]
  simp only [List.cons_append, List.append_assoc]
  exact spells_bracketed .beginObject .endObject nofun nofun (by decide) (prints_strung members)
    rest

end ScriptEvents.Json
