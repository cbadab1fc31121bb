import ScriptEvents.Json
/-!
Lexing: tokens written one after the other, with blanks anywhere between them, are read as those
tokens. Of all that is written only a number does not show where it ends.
-/
namespace ScriptEvents.Json

inductive Token.Written : Token → List Char → Prop where
  | beginArray : Written .beginArray ['[']
  | endArray : Written .endArray [']']
  | beginObject : Written .beginObject ['\x7b']
  | endObject : Written .endObject ['\x7d']
  | comma : Written .comma [',']
  | colon : Written .colon [':']
  | null : Written .null ['n', 'u', 'l', 'l']
  | boolean (value : Bool) : Written (.boolean value) (Printer.boolean value).toList
  | integer (n : Int) : Written (.integer n) (Text.integerChars n)
  | string (text : String) : Written (.string (some text)) (Printer.string text).toList

def Apart (c : Char) : Prop := c.isDigit = false ∧ c ≠ '.' ∧ c ≠ 'e' ∧ c ≠ 'E'

instance (c : Char) : Decidable (Apart c) :=
  inferInstanceAs (Decidable (_ ∧ _))

inductive Spells : List Token → List Char → Prop where
  | nil : Spells [] []
  | blank {c : Char} {ts : List Token} {cs : List Char} (h : Lexer.isBlank c = true)
      (rest : Spells ts cs) : Spells ts (c :: cs)
  | token {t : Token} {w : List Char} {ts : List Token} {cs : List Char} (written : t.Written w)
      (apart : ∀ n, t = .integer n → ∀ c ∈ cs.head?, Apart c) (rest : Spells ts cs) :
      Spells (t :: ts) (w ++ cs)

theorem Spells.mark {t : Token} {c : Char} {ts : List Token} {cs : List Char}
    (written : t.Written [c]) (ends : ∀ n, t ≠ .integer n) (rest : Spells ts cs) :
    Spells (t :: ts) (c :: cs) :=
  .token written (fun n h => absurd h (ends n)) rest

namespace Lexer

inductive Holds : Lexer → List Token → Prop where
  | settled (tokens : List Token) : Holds { tokens } tokens
  | number (tokens : List Token) {part : NumberPart} {negative : Bool} {magnitude : Nat}
      {token : Token} (ends : numberToken? part negative magnitude = some token) :
      Holds { tokens, mode := .number part negative magnitude } (token :: tokens)

variable {l : Lexer} {held : List Token}

theorem Holds.finish? (holds : l.Holds held) : l.finish? = some held.reverse := by
  cases holds with
  | settled => rfl
  | number tokens ends => simp only [Lexer.finish?, ends, Option.map_some]

theorem numberPart?_of_apart {part : NumberPart} {negative : Bool} {magnitude : Nat}
    {token : Token} {c : Char} (ends : numberToken? part negative magnitude = some token)
    (apart : Apart c) : numberPart? part c = none := by
  obtain ⟨digit, point, lower, upper⟩ := apart
  unfold numberPart?
  rw [digit, if_neg Bool.false_ne_true]
  split
  case h_11 => rfl
  all_goals contradiction

theorem Holds.step_of_apart (holds : l.Holds held) {c : Char} (apart : Apart c) :
    l.step (some c) = between held c := by
  cases holds with
  | settled => rfl
  | number tokens ends =>
    simp only [step, inNumber, numberPart?_of_apart ends apart, ends]

def read? (l : Lexer) (cs : List Char) : Option Lexer :=
  (cs.map some).foldlM step l

@[simp] theorem read?_nil (l : Lexer) : l.read? [] = some l := rfl

theorem read?_cons (l : Lexer) (c : Char) (cs : List Char) :
    l.read? (c :: cs) = (l.step (some c)).bind (read? · cs) := rfl

theorem read?_append {l next : Lexer} {cs : List Char} (h : l.read? cs = some next)
    (ds : List Char) : l.read? (cs ++ ds) = next.read? ds := by
  unfold read? at h ⊢
  rw [List.map_append, List.foldlM_append, h]
  rfl

theorem isDigit_digitChar {d : Nat} (h : d < 10) : (Nat.digitChar d).isDigit = true := by
  rw [Nat.isDigit_digitChar, decide_eq_true h]

theorem digitValue_digitChar {d : Nat} (h : d < 10) : digitValue (Nat.digitChar d) = d := by
  rw [digitValue, Nat.toNat_digitChar_of_lt_ten h]
  exact Nat.add_sub_cancel_left 48 d

theorem numberPart?_of_isDigit {c : Char} (digit : c.isDigit = true) :
    numberPart? .integer c = some .integer ∧
      numberPart? .minus c = some (if c = '0' then .zero else .integer) := by
  unfold numberPart?
  rw [if_pos digit, if_pos digit]
  exact ⟨rfl, rfl⟩

theorem isBlank_of_isDigit {c : Char} (digit : c.isDigit = true) : isBlank c = false := by
  rw [← Bool.not_eq_true]
  intro blank
  simp only [isBlank, Bool.or_eq_true, beq_iff_eq] at blank
  obtain ((rfl | rfl) | rfl) | rfl := blank <;> cases digit

theorem step_digit {negative : Bool} {magnitude d : Nat} (h : d < 10) :
    step { tokens := held, mode := .number .integer negative magnitude }
        (some (Nat.digitChar d)) =
      some { tokens := held, mode := .number .integer negative (magnitude * 10 + d) } := by
  simp only [step, inNumber, (numberPart?_of_isDigit (isDigit_digitChar h)).1,
    digitValue_digitChar h, if_true]

theorem step_first_digit {d : Nat} (positive : 0 < d) (h : d < 10) :
    step { tokens := held } (some (Nat.digitChar d)) =
        some { tokens := held, mode := .number .integer false d } ∧
      step { tokens := held, mode := .number .minus true 0 } (some (Nat.digitChar d)) =
        some { tokens := held, mode := .number .integer true d } := by
  have digit := isDigit_digitChar h
  have value := digitValue_digitChar h
  have leading : Nat.digitChar d ≠ '0' := by
    intro zero
    rw [zero] at value
    exact Nat.ne_of_lt positive value
  constructor
  · simp only [step, between, isBlank_of_isDigit digit, digit, leading, value,
      Bool.false_eq_true, if_true, if_false]
  · simp only [step, inNumber, (numberPart?_of_isDigit digit).2, leading, value, if_true, if_false]
    rw [Nat.zero_mul, Nat.zero_add]

theorem read?_digits {negative : Bool} {n : Nat} (positive : 0 < n)
    (first : ∀ d, 0 < d → d < 10 → l.step (some (Nat.digitChar d)) =
      some { tokens := held, mode := .number .integer negative d }) :
    l.read? (Text.digits n) =
      some { tokens := held, mode := .number .integer negative n } := by
  induction n using Nat.strongRecOn with
  | ind n ih =>
    by_cases single : n < 10
    · rw [Text.digits, Nat.toDigits_of_lt_base single, read?_cons, first n positive single]
      rfl
    · have least : 10 ≤ n := Nat.le_of_not_lt single
      have front := ih (n / 10) (by omega) (by omega)
      have split : Text.digits n = Text.digits (n / 10) ++ [Nat.digitChar (n % 10)] :=
        Nat.toDigits_of_base_le (by decide) least
      rw [split, read?_append front, read?_cons, step_digit (Nat.mod_lt n (by decide)),
        Nat.div_add_mod']
      rfl

theorem read?_integer (held : List Token) (n : Int) :
    ∃ l, read? { tokens := held } (Text.integerChars n) = some l ∧
      l.Holds (.integer n :: held) := by
  rcases Int.lt_trichotomy n 0 with negative | rfl | positive
  · have digits : read? { tokens := held, mode := .number .minus true 0 } (Text.digits n.natAbs) =
        some { tokens := held, mode := .number .integer true n.natAbs } :=
      read?_digits (by omega) fun d hd h => (step_first_digit hd h).2
    have token : numberToken? .integer true n.natAbs = some (.integer n) := by
      simp only [numberToken?, if_true]
      congr 2
      omega
    refine ⟨_, ?_, .number held token⟩
    rw [Text.integerChars, if_pos negative, read?_cons]
    exact digits
  · exact ⟨_, rfl, .number held rfl⟩
  · have digits : read? { tokens := held } (Text.digits n.natAbs) =
        some { tokens := held, mode := .number .integer false n.natAbs } :=
      read?_digits (by omega) fun d hd h => (step_first_digit hd h).1
    have token : numberToken? .integer false n.natAbs = some (.integer n) := by
      simp only [numberToken?, Bool.false_eq_true, if_false]
      congr 2
      omega
    refine ⟨_, ?_, .number held token⟩
    rw [Text.integerChars, if_neg (by omega)]
    exact digits

def inside (held : List Token) (chars : List Char) : Lexer :=
  { tokens := held, mode := .string { chars := some chars } .plain }

theorem hexValue?_digitChar : ∀ {d : Nat}, d < 16 → hexValue? (Nat.digitChar d) = some d := by
  decide

theorem pushUnit_control {c : Char} (control : c.toNat < 0x20) (chars : List Char) :
    StringText.pushUnit { chars := some chars } c.toNat = { chars := some (c :: chars) } := by
  simp only [StringText.pushUnit]
  rw [if_neg (by omega), if_neg (by omega), StringText.push, Char.ofNat_toNat]
  rfl

theorem read?_escape (held : List Token) (chars : List Char) (c : Char) :
    (inside held chars).read? (Printer.escape c) = some (inside held (c :: chars)) := by
  unfold Printer.escape
  split
  case h_8 quote backslash _ _ _ _ _ =>
    split
    next control =>
      have high := hexValue?_digitChar (d := c.toNat / 16) (by omega)
      have low := hexValue?_digitChar (d := c.toNat % 16) (by omega)
      have zero : hexValue? '0' = some 0 := rfl
      have code : c.toNat / 16 * 16 + c.toNat % 16 = c.toNat := Nat.div_add_mod' ..
      simp [read?_cons, inside, step, inString, high, low, zero, code, pushUnit_control control]
    next plain =>
      simp only [read?_cons, inside, step, inString, if_neg quote, if_neg backslash, if_neg plain]
      rfl
  all_goals rfl

theorem read?_escapes (held : List Token) (chars : List Char) (text : List Char) :
    (inside held chars).read? (text.flatMap Printer.escape) =
      some (inside held (text.reverse ++ chars)) := by
  induction text generalizing chars with
  | nil => rfl
  | cons c text ih =>
    rw [List.flatMap_cons, read?_append (read?_escape held chars c), ih, List.reverse_cons,
      List.append_assoc, List.singleton_append]

theorem read?_string (held : List Token) (text : String) :
    read? { tokens := held } (Printer.string text).toList =
      some { tokens := .string (some text) :: held } := by
  rw [Printer.string, String.toList_ofList, List.cons_append, read?_cons]
  change (inside held []).read? (text.toList.flatMap Printer.escape ++ ['"']) = _
  rw [read?_append (read?_escapes held [] text.toList), List.append_nil]
  simp [read?_cons, inside, step, inString, StringText.literal]

theorem read?_written {t : Token} {w : List Char} (written : t.Written w) (held : List Token) :
    ∃ l, read? { tokens := held } w = some l ∧ l.Holds (t :: held) ∧
      ((∀ n, t ≠ .integer n) → l = { tokens := t :: held }) := by
  cases written with
  | integer n =>
    obtain ⟨l, hread, holds⟩ := read?_integer held n
    exact ⟨l, hread, holds, fun other => absurd rfl (other n)⟩
  | string text => exact ⟨_, read?_string held text, .settled _, fun _ => rfl⟩
  | boolean value => cases value <;> exact ⟨_, rfl, .settled _, fun _ => rfl⟩
  | _ => exact ⟨_, rfl, .settled _, fun _ => rfl⟩

/-- Before a character that is apart, the lexer might as well be between tokens. -/
theorem Holds.exists_read? (holds : l.Holds held) {cs : List Char} {all : List Token}
    (apart : ∀ c ∈ cs.head?, Apart c)
    (settled : ∃ last, Lexer.read? { tokens := held } cs = some last ∧ last.Holds all) :
    ∃ last, l.read? cs = some last ∧ last.Holds all := by
  obtain ⟨last, hread, hall⟩ := settled
  cases cs with
  | nil =>
    cases hread
    cases hall
    exact ⟨l, rfl, holds⟩
  | cons c cs =>
    refine ⟨last, ?_, hall⟩
    rw [read?_cons, holds.step_of_apart (apart c rfl)]
    exact hread

theorem read?_spells {ts : List Token} {cs : List Char} (spells : Spells ts cs)
    (held : List Token) :
    ∃ l, read? { tokens := held } cs = some l ∧ l.Holds (ts.reverse ++ held) := by
  induction spells generalizing held with
  | nil => exact ⟨_, rfl, .settled held⟩
  | @blank c ts cs h rest ih =>
    obtain ⟨l, hread, holds⟩ := ih held
    refine ⟨l, ?_, holds⟩
    rw [read?_cons]
    simp only [step, between, h, if_true]
    exact hread
  | @token t w ts cs written apart rest ih =>
    -- The lexer learns only from what follows that an integer has ended.
    obtain ⟨next, hnext, holds, settled⟩ := read?_written written held
    rw [List.reverse_cons, List.append_assoc, List.singleton_append, read?_append hnext]
    by_cases number : ∃ n, t = .integer n
    · obtain ⟨n, rfl⟩ := number
      exact holds.exists_read? (apart n rfl) (ih _)
    · rw [settled fun n h => number ⟨n, h⟩]
      exact ih _

end Lexer

/-- What spells tokens is read as them. -/
theorem tokens?_of_spells {ts : List Token} {cs : List Char} (spells : Spells ts cs) :
    tokens? (cs.map some) = some ts := by
  obtain ⟨l, hread, holds⟩ := Lexer.read?_spells spells []
  have finished := holds.finish?
  rw [List.append_nil, List.reverse_reverse] at finished
  exact Option.bind_eq_some_iff.2 ⟨l, hread, finished⟩

end ScriptEvents.Json
