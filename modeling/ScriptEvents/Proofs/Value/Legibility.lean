import ScriptEvents.Proofs.Number.ExactValue
import ScriptEvents.Proofs.Text.Endings
import ScriptEvents.Value
/-!
Legibility: values whose text says all there is to them. A text shows by its first characters of
which type the value is, and by what follows where it ends; so a list is taken apart into its
elements, however they are nested, and no two such values have the same text.
-/
namespace ScriptEvents.Value

open Text

def isSymbolic (c : Char) : Bool := c.isAlphanum || c == '-'

/-- Values that the notation was made for: short integers, symbols like names, and no procedure with
a name of its own. Strings may hold anything, and pairs may be nested anyhow. -/
inductive Legible : Value → Prop where
  | nil : Legible nil
  | boolean (value : Bool) : Legible (boolean value)
  | number {x : Binary64} {k : ℤ} (value : x.value? = some (k : ℚ)) (short : |k| < 10 ^ 15)
      (zero : x ≠ .negativeZero) : Legible (number x)
  | string (text : String) : Legible (string text)
  | symbol {name : String} {first : Char} {rest : List Char} (spelled : name.toList = first :: rest)
      (letter : first.isAlpha = true) (others : ∀ c ∈ rest, isSymbolic c = true) :
      Legible (symbol name)
  | procedure (handle : UInt64) : Legible (procedure { handle })
  | pair {car cdr : Value} (hcar : Legible car) (hcdr : Legible cdr) : Legible (pair car cdr)

mutual

def written : Value → List Char
  | pair car cdr => '(' :: (written car ++ writtenTail cdr)
  | v => v.atomText.toList

/-- What follows the first element of a list, to the closing parenthesis. -/
def writtenTail : Value → List Char
  | pair car cdr => ' ' :: (written car ++ writtenTail cdr)
  | nil => [')']
  | v => ' ' :: '.' :: ' ' :: (v.atomText.toList ++ [')'])

end

variable {v w car cdr : Value} {x : Binary64} {k : ℤ} {c : Char} {cs r s : List Char}

theorem toList_write (v : Value) :
    (∀ out, (write v out).toList = out.toList ++ v.written) ∧
      ∀ out, (writeTail v out).toList = out.toList ++ v.writtenTail := by
  induction v with
  | pair car cdr ihcar ihcdr =>
    constructor
    · intro out
      simp [write, written, ihcar.1, ihcdr.2]
    · intro out
      simp [writeTail, writtenTail, ihcar.1, ihcdr.2]
  | _ => simp [write, writeTail, written, writtenTail]

theorem toList_text (v : Value) : v.text.toList = v.written :=
  (toList_write v).1 ""

theorem writtenTail_of_typeName (hnil : v.typeName ≠ "nil") (hpair : v.typeName ≠ "pair") :
    v.writtenTail = ' ' :: '.' :: ' ' :: (v.written ++ [')']) := by
  cases v with
  | nil => exact absurd rfl hnil
  | pair => exact absurd rfl hpair
  | _ => rfl

/-- What may stand behind a value. -/
def Delimits (cs : List Char) : Prop := ∀ c ∈ cs.head?, c = ' ' ∨ c = ')'

theorem delimits_nil : Delimits [] := nofun

theorem delimits_close (r : List Char) : Delimits (')' :: r) := by
  rintro c ⟨⟩
  exact .inr rfl

theorem delimits_writtenTail (v : Value) (r : List Char) : Delimits (v.writtenTail ++ r) := by
  cases v with
  | nil =>
    rintro c ⟨⟩
    exact .inr rfl
  | _ =>
    rintro c ⟨⟩
    exact .inl rfl

theorem Delimits.not_mem {kind : Char → Bool} (hr : Delimits r) (space : kind ' ' = false)
    (close : kind ')' = false) : ∀ c ∈ r.head?, kind c = false := by
  intro c hc
  rcases hr c hc with rfl | rfl
  · exact space
  · exact close

theorem numeral_of_value? (hx : x.value? = some (k : ℚ)) (short : |k| < 10 ^ 15) :
    x.numeral = integer k := by
  have small : k.natAbs < 1000000000000000 := by
    rw [Int.abs_eq_natAbs] at short
    omega
  simp only [Binary64.numeral, (Binary64.toInt?_eq_some_iff x k).2 hx, if_pos small]

theorem written_number (hx : x.value? = some (k : ℚ)) (short : |k| < 10 ^ 15) :
    (number x).written = integerChars k := by
  simp only [written, atomText, numeral_of_value? hx short, integer, String.toList_ofList]

theorem written_procedure (handle : UInt64) : (procedure { handle }).written =
    "#<procedure ".toList ++ (integerChars handle.toNat ++ ['>']) := by
  simp [written, atomText, integer]

theorem exists_integerChars_eq_cons (k : ℤ) :
    ∃ c cs, integerChars k = c :: cs ∧ isNumeric c = true := by
  have nonempty : integerChars k ≠ [] := by
    rw [integerChars]
    split
    · exact List.cons_ne_nil _ _
    · exact (isDigits_digits _).nonempty
  obtain ⟨c, cs, hcons⟩ := List.exists_cons_of_ne_nil nonempty
  exact ⟨c, cs, hcons, isNumeric_of_mem_integerChars (hcons ▸ List.mem_cons_self)⟩

theorem isNumeric_of_isAlpha (letter : c.isAlpha = true) : isNumeric c = false := by
  have least : 'A'.toNat ≤ c.toNat := by
    rcases Bool.or_eq_true_iff.1 letter with upper | lower
    · exact (of_decide_eq_true upper).1
    · have least : 'a'.toNat ≤ c.toNat := of_decide_eq_true (Bool.and_eq_true_iff.1 lower).1
      exact Nat.le_trans (by decide) least
  rw [← Bool.not_eq_true]
  intro numeric
  rcases Bool.or_eq_true_iff.1 numeric with sign | digit
  · rw [beq_iff_eq] at sign
    rw [sign] at least
    exact absurd least (by decide)
  · have greatest := (Char.isDigit_iff_toNat.1 digit).2
    exact absurd (Nat.le_trans least greatest) (by decide)

theorem isSymbolic_of_mem {name : String} {first : Char} {rest : List Char}
    (spelled : name.toList = first :: rest) (letter : first.isAlpha = true)
    (others : ∀ c ∈ rest, isSymbolic c = true) : ∀ c ∈ name.toList, isSymbolic c = true := by
  rw [spelled, List.forall_mem_cons]
  exact ⟨by simp [isSymbolic, Char.isAlphanum, letter], others⟩

theorem exists_written_eq_cons (hv : v.Legible) :
    ∃ c cs, v.written = c :: cs ∧ c ≠ ')' ∧ c ≠ '.' := by
  cases hv with
  | number value short =>
    obtain ⟨c, cs, hcons, numeric⟩ := exists_integerChars_eq_cons _
    refine ⟨c, cs, (written_number value short).trans hcons, ?_, ?_⟩
    · exact ne_of_kind numeric rfl
    · exact ne_of_kind numeric rfl
  | symbol spelled letter =>
    exact ⟨_, _, spelled, ne_of_kind letter rfl, ne_of_kind letter rfl⟩
  | string => exact ⟨_, _, String.toList_ofList, by decide, by decide⟩
  | boolean value => cases value <;> exact ⟨_, _, rfl, by decide, by decide⟩
  | procedure handle => exact ⟨_, _, written_procedure handle, by decide, by decide⟩
  | nil | pair => exact ⟨_, _, rfl, by decide, by decide⟩

def typeOf : List Char → String
  | [] => ""
  | c :: cs =>
    if c = '(' then if cs.head? = some ')' then "nil" else "pair"
    else if c = '#' then if cs.head? = some '<' then "procedure" else "boolean"
    else if c = '"' then "string"
    else if isNumeric c then "number"
    else "symbol"

def typeOfTail (cs : List Char) : String :=
  if cs.head? = some ')' then "nil"
  else if cs[1]? = some '.' then typeOf (cs.drop 3)
  else "pair"

theorem typeOf_of_isNumeric (numeric : isNumeric c = true) (cs : List Char) :
    typeOf (c :: cs) = "number" := by
  rw [typeOf, if_neg (ne_of_kind numeric rfl), if_neg (ne_of_kind numeric rfl),
    if_neg (ne_of_kind numeric rfl), if_pos numeric]

theorem typeOf_of_isAlpha (letter : c.isAlpha = true) (cs : List Char) :
    typeOf (c :: cs) = "symbol" := by
  rw [typeOf, if_neg (ne_of_kind letter rfl), if_neg (ne_of_kind letter rfl),
    if_neg (ne_of_kind letter rfl), isNumeric_of_isAlpha letter]
  rfl

theorem typeOf_written (hv : v.Legible) (r : List Char) : typeOf (v.written ++ r) = v.typeName := by
  cases hv with
  | number value short =>
    obtain ⟨c, cs, hcons, numeric⟩ := exists_integerChars_eq_cons _
    rw [written_number value short, hcons, List.cons_append, typeOf_of_isNumeric numeric]
    rfl
  | @symbol name first rest spelled letter =>
    have chars : (symbol name).written = first :: rest := spelled
    rw [chars, List.cons_append, typeOf_of_isAlpha letter]
    rfl
  | string text =>
    have chars : (string text).written = (quoted text).toList := rfl
    rw [chars, quoted, String.toList_ofList]
    rfl
  | boolean value => cases value <;> rfl
  | procedure handle => rw [written_procedure]; rfl
  | nil => rfl
  | pair hcar _ =>
    obtain ⟨c, cs, hcons, close, -⟩ := exists_written_eq_cons hcar
    simp [written, hcons, typeOf, close, typeName]

theorem typeOfTail_writtenTail (hv : v.Legible) (r : List Char) :
    typeOfTail (v.writtenTail ++ r) = v.typeName := by
  cases v with
  | nil => rfl
  | pair car cdr =>
    cases hv with
    | pair hcar _ =>
      obtain ⟨c, cs, hcons, -, point⟩ := exists_written_eq_cons hcar
      simp [writtenTail, hcons, typeOfTail, point, typeName]
  | _ =>
    rw [writtenTail_of_typeName (by simp [typeName]) (by simp [typeName])]
    simpa [typeOfTail] using typeOf_written hv (')' :: r)

theorem eq_nil_of_typeName (h : v.typeName = "nil") : v = nil := by
  cases v with
  | nil => rfl
  | _ => simp [typeName] at h

/-- In front of what may stand behind it, a value's text is no other one's, and likewise for what
follows the first element of a list. -/
structure ToldApart (v : Value) : Prop where
  text {w : Value} {r s : List Char} (hw : w.Legible) (hr : Delimits r) (hs : Delimits s)
      (h : v.written ++ r = w.written ++ s) : v = w ∧ r = s
  tail {w : Value} {r s : List Char} (hw : w.Legible)
      (h : v.writtenTail ++ r = w.writtenTail ++ s) : v = w ∧ r = s

theorem typeName_eq_of_text (hv : v.Legible) (hw : w.Legible) (h : v.written ++ r = w.written ++ s) :
    v.typeName = w.typeName := by
  rw [← typeOf_written hv r, h, typeOf_written hw]

theorem typeName_eq_of_tail (hv : v.Legible) (hw : w.Legible)
    (h : v.writtenTail ++ r = w.writtenTail ++ s) : v.typeName = w.typeName := by
  rw [← typeOfTail_writtenTail hv r, h, typeOfTail_writtenTail hw]

theorem ToldApart.of_text (hv : v.Legible) (atom : v.typeName ≠ "pair")
    (text : ∀ {w : Value} {r s : List Char}, w.Legible → v.typeName = w.typeName → Delimits r →
      Delimits s → v.written ++ r = w.written ++ s → v = w ∧ r = s) : v.ToldApart where
  text hw hr hs h := text hw (typeName_eq_of_text hv hw h) hr hs h
  tail {w r s} hw h := by
    have same := typeName_eq_of_tail hv hw h
    by_cases hnil : v.typeName = "nil"
    · obtain rfl := eq_nil_of_typeName hnil
      obtain rfl := eq_nil_of_typeName (same.symm.trans hnil)
      exact ⟨rfl, List.append_cancel_left h⟩
    · rw [writtenTail_of_typeName hnil atom,
        writtenTail_of_typeName (same ▸ hnil) (same ▸ atom)] at h
      simp only [List.cons_append, List.append_assoc, List.cons.injEq, true_and,
        List.nil_append] at h
      obtain ⟨rfl, hrest⟩ := text hw same (delimits_close r) (delimits_close s) h
      exact ⟨rfl, (List.cons.inj hrest).2⟩

/-- A list is told apart by its elements, one after the other. -/
theorem ToldApart.pair (hv : (Value.pair car cdr).Legible) (hcar : car.ToldApart)
    (hcdr : cdr.ToldApart) : (Value.pair car cdr).ToldApart := by
  have parts {car' cdr' : Value} {r s : List Char} (hcar' : car'.Legible) (hcdr' : cdr'.Legible)
      (h : car.written ++ (cdr.writtenTail ++ r) = car'.written ++ (cdr'.writtenTail ++ s)) :
      Value.pair car cdr = Value.pair car' cdr' ∧ r = s := by
    obtain ⟨rfl, htail⟩ :=
      hcar.text hcar' (delimits_writtenTail cdr r) (delimits_writtenTail cdr' s) h
    obtain ⟨rfl, rfl⟩ := hcdr.tail hcdr' htail
    exact ⟨rfl, rfl⟩
  constructor
  case text =>
    intro w r s hw _ _ h
    have same := typeName_eq_of_text hv hw h
    cases hw with
    | pair hcar' hcdr' =>
      simp only [written, List.cons_append, List.append_assoc, List.cons.injEq, true_and] at h
      exact parts hcar' hcdr' h
    | _ => simp [typeName] at same
  case tail =>
    intro w r s hw h
    have same := typeName_eq_of_tail hv hw h
    cases hw with
    | pair hcar' hcdr' =>
      simp only [writtenTail, List.cons_append, List.append_assoc, List.cons.injEq, true_and] at h
      exact parts hcar' hcdr' h
    | _ => simp [typeName] at same

theorem toldApart_boolean (b : Bool) : (boolean b).ToldApart := by
  refine .of_text (.boolean b) (by simp [typeName]) fun hw same _ _ h => ?_
  cases hw with
  | boolean b' =>
    cases b <;> cases b' <;> simp_all [written, atomText]
  | _ => simp [typeName] at same

theorem toldApart_number (value : x.value? = some (k : ℚ)) (short : |k| < 10 ^ 15)
    (zero : x ≠ .negativeZero) : (number x).ToldApart := by
  refine .of_text (.number value short zero) (by simp [typeName]) fun hw same hr hs h => ?_
  cases hw with
  | number value' short' zero' =>
    rw [written_number value short, written_number value' short'] at h
    obtain ⟨rfl, rfl⟩ := integerChars_append_inj (hr.not_mem rfl rfl) (hs.not_mem rfl rfl) h
    exact ⟨congrArg number (Binary64.value?_inj value value' zero zero'), rfl⟩
  | _ => simp [typeName] at same

theorem toldApart_string (text : String) : (string text).ToldApart := by
  refine .of_text (.string text) (by simp [typeName]) fun hw same _ _ h => ?_
  cases hw with
  | string =>
    obtain ⟨rfl, rfl⟩ := quoted_append_inj h
    exact ⟨rfl, rfl⟩
  | _ => simp [typeName] at same

theorem toldApart_symbol {name : String} (hv : (symbol name).Legible) :
    (symbol name).ToldApart := by
  refine .of_text hv (by simp [typeName]) fun hw same hr hs h => ?_
  cases hv with
  | symbol spelled letter others =>
    cases hw with
    | symbol spelled' letter' others' =>
      obtain ⟨hname, rfl⟩ := run_append_inj (isSymbolic_of_mem spelled letter others)
        (isSymbolic_of_mem spelled' letter' others') (hr.not_mem rfl rfl) (hs.not_mem rfl rfl) h
      exact ⟨congrArg symbol (String.toList_inj.1 hname), rfl⟩
    | _ => simp [typeName] at same

theorem toldApart_procedure (handle : UInt64) : (procedure { handle }).ToldApart := by
  refine .of_text (.procedure handle) (by simp [typeName]) fun hw same _ _ h => ?_
  cases hw with
  | procedure handle' =>
    rw [written_procedure, written_procedure, List.append_assoc, List.append_assoc,
      List.append_assoc, List.append_assoc] at h
    have ends (r : List Char) : ∀ c ∈ (['>'] ++ r).head?, isNumeric c = false := by
      rintro c ⟨⟩
      rfl
    obtain ⟨hhandle, hrest⟩ :=
      integerChars_append_inj (ends _) (ends _) (List.append_cancel_left h)
    have hhandle : handle = handle' := UInt64.toNat_inj.1 (by exact_mod_cast hhandle)
    exact ⟨by rw [hhandle], List.append_cancel_left hrest⟩
  | _ => simp [typeName] at same

theorem toldApart (hv : v.Legible) : v.ToldApart := by
  -- By induction on both sides of a pair, since a list may be nested in a car as well as in a cdr.
  induction hv with
  | nil =>
    refine .of_text .nil (by simp [typeName]) fun hw same _ _ h => ?_
    obtain rfl := eq_nil_of_typeName same.symm
    exact ⟨rfl, List.append_cancel_left h⟩
  | boolean b => exact toldApart_boolean b
  | number value short zero => exact toldApart_number value short zero
  | string text => exact toldApart_string text
  | symbol spelled letter others => exact toldApart_symbol (.symbol spelled letter others)
  | procedure handle => exact toldApart_procedure handle
  | pair hcar hcdr ihcar ihcdr => exact .pair (.pair hcar hcdr) ihcar ihcdr

theorem same_iff (hv : v.Legible) (hw : w.Legible) : v.same w = true ↔ v = w := by
  induction hv generalizing w with
  | number value short zero =>
    cases hw with
    | number value' short' zero' =>
      rw [same, number.injEq]
      exact Binary64.sameNumber_iff value value' zero zero'
    | _ => simp [same]
  | pair _ _ ihcar ihcdr =>
    cases hw with
    | pair hcar hcdr => simp [same, ihcar hcar, ihcdr hcdr]
    | _ => simp [same]
  | _ => cases hw <;> simp [same]

theorem text_tells_apart (hv : v.Legible) (hw : w.Legible) :
    (v.text = w.text ↔ v = w) ∧ (v.same w = true ↔ v = w) := by
  refine ⟨⟨fun h => ?_, fun h => h ▸ rfl⟩, same_iff hv hw⟩
  have chars : v.written ++ [] = w.written ++ [] := by
    rw [← toList_text, h, toList_text]
  exact ((toldApart hv).text hw delimits_nil delimits_nil chars).1

/-- A list that ends in a string: `(on -42 "a" . "b")`. -/
def dotted : Value :=
  ofListOnto [symbol "on", number ⟨0xc045000000000000⟩, string "a"] (string "b")

/-- A proper list whose last string holds the point: `(on -42 "a\" . \"b")`. -/
def undotted : Value :=
  ofList [symbol "on", number ⟨0xc045000000000000⟩, string "a\" . \"b"]

theorem text_tells_apart_dotted : dotted.Legible ∧ undotted.Legible ∧
    dotted.text ≠ undotted.text ∧ dotted.same undotted = false := by
  have spelled : "on".toList = ['o', 'n'] := rfl
  have symbol : (symbol "on").Legible := .symbol spelled rfl (List.forall_mem_singleton.2 rfl)
  have number : (number ⟨0xc045000000000000⟩).Legible :=
    .number (k := -42) ((Binary64.toInt?_eq_some_iff _ _).1 (by decide)) (by decide) (by decide)
  have dotted : dotted.Legible := .pair symbol (.pair number (.pair (.string "a") (.string "b")))
  have undotted : undotted.Legible := .pair symbol (.pair number (.pair (.string _) .nil))
  obtain ⟨text, same⟩ := text_tells_apart dotted undotted
  refine ⟨dotted, undotted, fun h => ?_, ?_⟩
  · exact absurd (text.1 h) (by decide)
  · rw [← Bool.not_eq_true, same]
    decide

end ScriptEvents.Value
