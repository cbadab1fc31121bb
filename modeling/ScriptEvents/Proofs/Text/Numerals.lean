import Mathlib.Data.Nat.Digits.Defs
import ScriptEvents.Text
/-!
Numerals: a text is read as a 64-bit integer just when it is one optional sign and one or more
digits, and the integer that they denote is one of 64 bits. Digits only lead away from zero, so a
reader that has left these integers would not have come back to them.
-/
namespace ScriptEvents.Text

def decimalValue (cs : List Char) : ℕ :=
  Nat.ofDigits 10 (cs.map fun c => c.toNat - '0'.toNat).reverse

structure IsDigits (cs : List Char) : Prop where
  nonempty : cs ≠ []
  digits : ∀ c ∈ cs, c.isDigit = true

/-- The integer this far from zero on either side. -/
def signed (negative : Bool) (n : ℕ) : ℤ := if negative then -n else n

/-- The text is an optional sign and digits, and denotes this integer. -/
inductive Denotes : List Char → ℤ → Prop where
  | unsigned {cs : List Char} (h : IsDigits cs) : Denotes cs (signed false (decimalValue cs))
  | plus {cs : List Char} (h : IsDigits cs) : Denotes ('+' :: cs) (signed false (decimalValue cs))
  | minus {cs : List Char} (h : IsDigits cs) : Denotes ('-' :: cs) (signed true (decimalValue cs))

variable {negative : Bool} {x y : Int64} {n k : ℕ} {i : ℤ} {c : Char} {cs : List Char}

theorem decimalValue_cons (c : Char) (cs : List Char) :
    decimalValue (c :: cs) = 10 ^ cs.length * (c.toNat - '0'.toNat) + decimalValue cs := by
  simp [decimalValue, Nat.ofDigits_append, Nat.add_comm]

theorem ofDigitChars_eq (cs : List Char) (n : ℕ) :
    Nat.ofDigitChars 10 cs n = 10 ^ cs.length * n + decimalValue cs := by
  induction cs generalizing n with
  | nil => simp [decimalValue]
  | cons c cs ih =>
    rw [Nat.ofDigitChars_cons, ih, decimalValue_cons, List.length_cons]
    ring

theorem decimalValue_digits (n : ℕ) : decimalValue (digits n) = n := by
  have h := ofDigitChars_eq (digits n) 0
  rw [Nat.mul_zero, Nat.zero_add] at h
  rw [← h]
  exact Nat.ofDigitChars_ten_toDigits

theorem isDigits_digits (n : ℕ) : IsDigits (digits n) where
  nonempty := Nat.toDigits_ne_nil
  digits _ hc := Nat.isDigit_of_mem_toDigits (by decide) (by decide) hc

theorem denotes_integerChars (i : ℤ) : Denotes (integerChars i) i := by
  have h := isDigits_digits i.natAbs
  rw [integerChars]
  split
  next negative =>
    have denotes := Denotes.minus h
    rw [decimalValue_digits, signed, if_pos rfl] at denotes
    have value : -(i.natAbs : ℤ) = i := by omega
    rwa [value] at denotes
  next nonnegative =>
    have denotes := Denotes.unsigned h
    rw [decimalValue_digits, signed, if_neg Bool.false_ne_true] at denotes
    have value : (i.natAbs : ℤ) = i := by omega
    rwa [value] at denotes

theorem narrow?_eq_some_iff : narrow? i = some x ↔ x.toInt = i := by
  rw [narrow?, Option.ite_none_right_eq_some, Option.some_inj]
  constructor
  · rintro ⟨⟨least, greatest⟩, rfl⟩
    apply Int64.toInt_ofInt_of_le least
    exact greatest.trans_lt (by decide)
  · rintro rfl
    exact ⟨⟨x.minValue_le_toInt, x.toInt_le⟩, Int64.ofInt_toInt x⟩

theorem narrow?_eq_none_iff :
    narrow? i = none ↔ i < Int64.minValue.toInt ∨ Int64.maxValue.toInt < i := by
  rw [narrow?]
  split
  next h => simp only [reduceCtorEq, false_iff]; omega
  next h => simp only [true_iff]; omega

theorem narrow?_signed_eq_none (beyond : narrow? (signed negative n) = none) (h : n ≤ k) :
    narrow? (signed negative k) = none := by
  have least : Int64.minValue.toInt ≤ 0 := by decide
  have greatest : 0 ≤ Int64.maxValue.toInt := by decide
  rw [narrow?_eq_none_iff, signed] at beyond ⊢
  cases negative
  · rw [if_neg Bool.false_ne_true] at beyond ⊢
    omega
  · rw [if_pos rfl] at beyond ⊢
    omega

/-- The product fits whenever the result does. -/
theorem pushDigit?_of_isDigit (hx : x.toInt = signed negative n) (digit : c.isDigit = true) :
    pushDigit? negative x c = narrow? (signed negative (10 * n + (c.toNat - '0'.toNat))) := by
  rw [pushDigit?, if_pos digit]
  generalize c.toNat - '0'.toNat = d
  have product : x.toInt * 10 = signed negative (10 * n) := by
    rw [hx, signed, signed]
    split <;> push_cast <;> ring
  rw [product]
  cases shifted : narrow? (signed negative (10 * n)) with
  | none => exact (narrow?_signed_eq_none shifted (Nat.le_add_right _ d)).symm
  | some y =>
    have hy := narrow?_eq_some_iff.1 shifted
    have sum : (if negative then y.toInt - d else y.toInt + d) = signed negative (10 * n + d) := by
      rw [hy, signed, signed]
      split <;> push_cast <;> ring
    exact congrArg narrow? sum

theorem foldlM_pushDigit? (hx : x.toInt = signed negative n) (digits : ∀ c ∈ cs, c.isDigit = true) :
    cs.foldlM (pushDigit? negative) x = narrow? (signed negative (Nat.ofDigitChars 10 cs n)) := by
  induction cs generalizing x n with
  | nil => exact (narrow?_eq_some_iff.2 hx).symm
  | cons c cs ih =>
    rw [List.forall_mem_cons] at digits
    rw [List.foldlM_cons, pushDigit?_of_isDigit hx digits.1, Nat.ofDigitChars_cons]
    generalize 10 * n + (c.toNat - '0'.toNat) = k
    cases pushed : narrow? (signed negative k) with
    | none =>
      -- The reading ends here; whatever digits follow, the whole is no nearer to zero.
      have away : k ≤ Nat.ofDigitChars 10 cs k := by
        rw [ofDigitChars_eq]
        exact Nat.le_add_right_of_le (Nat.le_mul_of_pos_left k (by positivity))
      exact (narrow?_signed_eq_none pushed away).symm
    | some y => exact ih (narrow?_eq_some_iff.1 pushed) digits.2

theorem isDigit_of_foldlM (h : cs.foldlM (pushDigit? negative) x = some y) :
    ∀ c ∈ cs, c.isDigit = true := by
  induction cs generalizing x with
  | nil => simp
  | cons c cs ih =>
    obtain ⟨z, hz, hrest⟩ := Option.bind_eq_some_iff.1 h
    rw [pushDigit?, Option.ite_none_right_eq_some] at hz
    exact List.forall_mem_cons.2 ⟨hz.1, ih hrest⟩

theorem readDigits?_eq_some_iff :
    readDigits? negative cs = some x ↔
      IsDigits cs ∧ signed negative (decimalValue cs) = x.toInt := by
  have zero : (0 : Int64).toInt = signed negative 0 := by cases negative <;> rfl
  have value : Nat.ofDigitChars 10 cs 0 = decimalValue cs := by
    rw [ofDigitChars_eq, Nat.mul_zero, Nat.zero_add]
  have reads (digits : ∀ c ∈ cs, c.isDigit = true) : cs.foldlM (pushDigit? negative) 0 = some x ↔
      signed negative (decimalValue cs) = x.toInt := by
    rw [foldlM_pushDigit? zero digits, value, narrow?_eq_some_iff, eq_comm]
  rw [readDigits?, Option.ite_none_left_eq_some, List.isEmpty_iff]
  constructor
  · rintro ⟨nonempty, h⟩
    have digits := isDigit_of_foldlM h
    exact ⟨⟨nonempty, digits⟩, (reads digits).1 h⟩
  · rintro ⟨⟨nonempty, digits⟩, h⟩
    exact ⟨nonempty, (reads digits).2 h⟩

theorem not_isDigits_cons (sign : c.isDigit = false) : ¬ IsDigits (c :: cs) := by
  intro h
  have digit := h.digits c List.mem_cons_self
  rw [sign] at digit
  cases digit

theorem denotes_plus_iff :
    Denotes ('+' :: cs) i ↔ IsDigits cs ∧ signed false (decimalValue cs) = i := by
  constructor
  · rintro (h | h)
    · exact absurd h (not_isDigits_cons (by decide))
    · exact ⟨h, rfl⟩
  · rintro ⟨h, rfl⟩
    exact .plus h

theorem denotes_minus_iff :
    Denotes ('-' :: cs) i ↔ IsDigits cs ∧ signed true (decimalValue cs) = i := by
  constructor
  · rintro (h | _ | h)
    · exact absurd h (not_isDigits_cons (by decide))
    · exact ⟨h, rfl⟩
  · rintro ⟨h, rfl⟩
    exact .minus h

theorem denotes_iff_of_unsigned (plus : ∀ ds, cs ≠ '+' :: ds) (minus : ∀ ds, cs ≠ '-' :: ds) :
    Denotes cs i ↔ IsDigits cs ∧ signed false (decimalValue cs) = i := by
  constructor
  · rintro (h | _ | _)
    · exact ⟨h, rfl⟩
    · exact absurd rfl (plus _)
    · exact absurd rfl (minus _)
  · rintro ⟨h, rfl⟩
    exact .unsigned h

theorem Denotes.unique {j : ℤ} (hi : Denotes cs i) (hj : Denotes cs j) : i = j := by
  cases hi with
  | unsigned h =>
    cases hj with
    | unsigned => rfl
    | plus | minus => exact absurd h (not_isDigits_cons (by decide))
  | plus h => exact (denotes_plus_iff.1 hj).2
  | minus h => exact (denotes_minus_iff.1 hj).2

/-- A text is read as the 64-bit integer that it denotes, and not at all if it denotes none. -/
theorem readInt64?_eq_some_iff {s : String} : readInt64? s = some x ↔ Denotes s.toList x.toInt := by
  rw [readInt64?]
  split
  next hs => rw [hs, denotes_plus_iff, readDigits?_eq_some_iff]
  next hs => rw [hs, denotes_minus_iff, readDigits?_eq_some_iff]
  next plus minus => rw [denotes_iff_of_unsigned plus minus, readDigits?_eq_some_iff]

theorem readInt64?_integer (x : Int64) : readInt64? (integer x.toInt) = some x := by
  rw [readInt64?_eq_some_iff, integer, String.toList_ofList]
  exact denotes_integerChars x.toInt

end ScriptEvents.Text
