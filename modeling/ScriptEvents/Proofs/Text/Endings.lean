import ScriptEvents.Proofs.Text.Numerals
import ScriptEvents.Text
/-!
Endings: what is written of an integer or of a string shows where it ends. In front of anything that
does not go on with it, it is told apart from what is written of any other.
-/
namespace ScriptEvents.Text

variable {c d : Char} {cs ds r s : List Char}

theorem ne_of_kind {kind : Char → Bool} (hc : kind c = true) (hd : kind d = false) : c ≠ d := by
  rintro rfl
  rw [hc] at hd
  cases hd

theorem run_append_inj {kind : Char → Bool} (hcs : ∀ c ∈ cs, kind c = true)
    (hds : ∀ c ∈ ds, kind c = true) (hr : ∀ c ∈ r.head?, kind c = false)
    (hs : ∀ c ∈ s.head?, kind c = false) (h : cs ++ r = ds ++ s) : cs = ds ∧ r = s := by
  have ends {r : List Char} (hr : ∀ c ∈ r.head?, kind c = false) : r.takeWhile kind = [] := by
    cases r with
    | nil => rfl
    | cons c r => simp [hr c rfl]
  have hrun := congrArg (List.takeWhile kind) h
  rw [List.takeWhile_append_of_pos hcs, List.takeWhile_append_of_pos hds, ends hr, ends hs,
    List.append_nil, List.append_nil] at hrun
  subst hrun
  exact ⟨rfl, List.append_cancel_left h⟩

def isNumeric (c : Char) : Bool := c == '-' || c.isDigit

theorem isNumeric_of_mem_integerChars {i : ℤ} (h : c ∈ integerChars i) : isNumeric c = true := by
  have digit {n : ℕ} (h : c ∈ digits n) : isNumeric c = true := by
    rw [isNumeric, (isDigits_digits n).digits c h, Bool.or_true]
  rw [integerChars] at h
  split at h
  · rcases List.mem_cons.1 h with rfl | h
    · rfl
    · exact digit h
  · exact digit h

theorem integerChars_append_inj {i j : ℤ} (hr : ∀ c ∈ r.head?, isNumeric c = false)
    (hs : ∀ c ∈ s.head?, isNumeric c = false) (h : integerChars i ++ r = integerChars j ++ s) :
    i = j ∧ r = s := by
  obtain ⟨hchars, rfl⟩ := run_append_inj (fun _ => isNumeric_of_mem_integerChars)
    (fun _ => isNumeric_of_mem_integerChars) hr hs h
  have denotes := denotes_integerChars i
  rw [hchars] at denotes
  exact ⟨denotes.unique (denotes_integerChars j), rfl⟩

theorem digitChar_inj : ∀ {m : ℕ}, m < 16 → ∀ {n : ℕ}, n < 16 →
    Nat.digitChar m = Nat.digitChar n → m = n := by
  decide

theorem toDigits_eq_concat (n : ℕ) : Nat.toDigits 16 n =
    (if n < 16 then [] else Nat.toDigits 16 (n / 16)) ++ [Nat.digitChar (n % 16)] := by
  rw [Nat.toDigits_eq_if (by decide)]
  split
  next small => rw [Nat.mod_eq_of_lt small, List.nil_append]
  next => rfl

theorem toDigits_inj {m n : ℕ} (h : Nat.toDigits 16 m = Nat.toDigits 16 n) : m = n := by
  induction m using Nat.strongRecOn generalizing n with
  | ind m ih =>
    rw [toDigits_eq_concat m, toDigits_eq_concat n] at h
    obtain ⟨front, last⟩ := List.append_inj' h rfl
    have digit : m % 16 = n % 16 :=
      digitChar_inj (Nat.mod_lt m (by decide)) (Nat.mod_lt n (by decide)) (List.cons.inj last).1
    split at front
    next hm =>
      split at front
      next hn => omega
      next => exact absurd front.symm Nat.toDigits_ne_nil
    next hm =>
      split at front
      next => exact absurd front Nat.toDigits_ne_nil
      next hn =>
        have quotient := ih (m / 16) (by omega) front
        omega

theorem exists_digitChar_of_mem {n : ℕ} (h : c ∈ Nat.toDigits 16 n) :
    ∃ d < 16, c = Nat.digitChar d := by
  induction n using Nat.strongRecOn with
  | ind n ih =>
    rw [toDigits_eq_concat, List.mem_append] at h
    rcases h with h | h
    · split at h
      next => cases h
      next large => exact ih (n / 16) (by omega) h
    · exact ⟨n % 16, Nat.mod_lt n (by decide), List.mem_singleton.1 h⟩

theorem digitChar_ne_brace : ∀ {d : ℕ}, d < 16 → (Nat.digitChar d != '\x7d') = true := by
  decide

theorem codePointEscape_append_inj (h : codePointEscape c ++ r = codePointEscape d ++ s) :
    c = d ∧ r = s := by
  have inside (c : Char) : ∀ x ∈ Nat.toDigits 16 c.toNat, (x != '\x7d') = true := by
    intro x hx
    obtain ⟨d, hd, rfl⟩ := exists_digitChar_of_mem hx
    exact digitChar_ne_brace hd
  have ends (r : List Char) : ∀ x ∈ ('\x7d' :: r).head?, (x != '\x7d') = false := by
    rintro x ⟨⟩
    rfl
  simp only [codePointEscape, List.cons_append, List.nil_append, List.append_assoc, List.cons.injEq,
    true_and] at h
  obtain ⟨hdigits, hrest⟩ := run_append_inj (inside c) (inside d) (ends r) (ends s) h
  exact ⟨Char.toNat_inj.1 (toDigits_inj hdigits), (List.cons.inj hrest).2⟩

def letterEscapes : List (Char × Char) :=
  [('"', '"'), ('\\', '\\'), ('\n', 'n'), ('\r', 'r'), ('\t', 't'), ('\x00', '0')]

inductive Escaped : Char → List Char → Prop where
  | plain {c : Char} (quote : c ≠ '"') (backslash : c ≠ '\\') : Escaped c [c]
  | letter {c l : Char} (listed : (c, l) ∈ letterEscapes) : Escaped c ['\\', l]
  | code (c : Char) : Escaped c (codePointEscape c)

theorem escaped_escape (c : Char) : Escaped c (escape c) := by
  unfold escape
  split
  case h_7 quote backslash _ _ _ _ =>
    split
    · exact .code c
    · exact .plain quote backslash
  all_goals exact .letter (by decide)

theorem letterEscapes_inj : ∀ p ∈ letterEscapes, ∀ q ∈ letterEscapes, p.2 = q.2 → p = q := by
  decide

theorem letterEscapes_ne_u : ∀ p ∈ letterEscapes, p.2 ≠ 'u' := by
  decide

theorem Escaped.append_inj {x y : List Char} (hx : Escaped c x) (hy : Escaped d y)
    (h : x ++ r = y ++ s) : c = d ∧ r = s := by
  cases hx with
  | plain _ backslash =>
    cases hy with
    | plain => exact List.cons.inj h
    | letter | code => exact absurd (List.cons.inj h).1 backslash
  | letter listed =>
    cases hy with
    | plain _ backslash => exact absurd (List.cons.inj h).1.symm backslash
    | letter listed' =>
      obtain ⟨rfl, rfl⟩ := List.cons.inj (List.cons.inj h).2
      exact ⟨(Prod.mk.inj (letterEscapes_inj _ listed _ listed' rfl)).1, rfl⟩
    | code => exact absurd (List.cons.inj (List.cons.inj h).2).1 (letterEscapes_ne_u _ listed)
  | code =>
    cases hy with
    | plain _ backslash => exact absurd (List.cons.inj h).1.symm backslash
    | letter listed =>
      exact absurd (List.cons.inj (List.cons.inj h).2).1.symm (letterEscapes_ne_u _ listed)
    | code => exact codePointEscape_append_inj h

theorem Escaped.append_ne_quote {x : List Char} (hx : Escaped c x) : x ++ r ≠ '"' :: s := by
  intro h
  cases hx with
  | plain quote => exact quote (List.cons.inj h).1
  | letter | code => cases (List.cons.inj h).1

theorem escapes_append_inj
    (h : cs.flatMap escape ++ '"' :: r = ds.flatMap escape ++ '"' :: s) : cs = ds ∧ r = s := by
  induction cs generalizing ds with
  | nil =>
    cases ds with
    | nil => exact ⟨rfl, (List.cons.inj h).2⟩
    | cons d ds =>
      rw [List.flatMap_cons, List.append_assoc] at h
      exact absurd h.symm (escaped_escape d).append_ne_quote
  | cons c cs ih =>
    rw [List.flatMap_cons, List.append_assoc] at h
    cases ds with
    | nil => exact absurd h (escaped_escape c).append_ne_quote
    | cons d ds =>
      rw [List.flatMap_cons, List.append_assoc] at h
      obtain ⟨rfl, hrest⟩ := (escaped_escape c).append_inj (escaped_escape d) h
      obtain ⟨rfl, rfl⟩ := ih hrest
      exact ⟨rfl, rfl⟩

theorem quoted_append_inj {a b : String} (h : (quoted a).toList ++ r = (quoted b).toList ++ s) :
    a = b ∧ r = s := by
  simp only [quoted, String.toList_ofList, List.cons_append, List.append_assoc, List.nil_append,
    List.cons.injEq, true_and] at h
  obtain ⟨hchars, rfl⟩ := escapes_append_inj h
  exact ⟨String.toList_inj.1 hchars, rfl⟩

end ScriptEvents.Text
