import ScriptEvents.Proofs.Number.ExactValue
import ScriptEvents.Proofs.Procedures.Cancelling
/-!
Numbers as ids: the cancelling procedure takes a number for the listener whose id is its exact value,
and refuses it if the value is no integer. An integer beyond those of 64 bits is taken for the
nearest of them, and so reaches a listener that it does not name.
-/
namespace ScriptEvents

namespace Binary64

variable {x : Binary64} {k : ℤ}

theorem toInt?_eq_none_iff : x.toInt? = none ↔ ∀ k : ℤ, x.value? ≠ some (k : ℚ) := by
  simp only [Option.eq_none_iff_forall_ne_some, ne_eq, toInt?_eq_some_iff]

theorem clampInt64_toInt (n : Int64) : clampInt64 n.toInt = n := by
  rw [clampInt64, min_eq_right n.toInt_le, max_eq_right n.minValue_le_toInt, Int64.ofInt_toInt]

theorem clampInt64_of_lt (below : k < Int64.minValue.toInt) : clampInt64 k = .minValue := by
  have greatest : k ≤ Int64.maxValue.toInt := by
    have order : Int64.minValue.toInt ≤ Int64.maxValue.toInt := by decide
    omega
  rw [clampInt64, min_eq_right greatest, max_eq_left below.le, Int64.ofInt_toInt]

theorem clampInt64_of_gt (above : Int64.maxValue.toInt < k) : clampInt64 k = .maxValue := by
  rw [clampInt64, min_eq_left above.le, max_eq_right (by decide), Int64.ofInt_toInt]

end Binary64

namespace NativeProcedure

open Binary64

structure CancelsByValue (m : Machine) (x : Binary64) : Prop where
  refuses : (∀ k : ℤ, x.value? ≠ some (k : ℚ)) →
    ∀ (session : Option Session) (moves : List Move) (n : Machine) (trace : Trace)
      (value : Except BindingError Value),
      cancel.Call (.ofList [.number x]) session m moves n trace value ↔
        moves = [] ∧ n = m ∧ trace = [] ∧
          value = .error (.invalidArgument "io-cancel" "expected symbol, got number")
  names (id : ListenerId) : x.value? = some (id.toInt : ℚ) → Names m (.number x) id
  -- Any other integer names what the nearest of 64 bits does.
  below (k : ℤ) : x.value? = some (k : ℚ) → k < Int64.minValue.toInt →
    Names m (.number x) .minValue
  above (k : ℤ) : x.value? = some (k : ℚ) → Int64.maxValue.toInt < k →
    Names m (.number x) .maxValue
  unmatched : (∀ k : ℤ, x.value? = some (k : ℚ) →
      Int64.minValue.toInt ≤ k ∧ k ≤ Int64.maxValue.toInt) →
    (∀ id : ListenerId, x.value? = some (id.toInt : ℚ) → m.registry.contains id = false) →
    ∀ (session : Option Session) (moves : List Move) (n : Machine) (trace : Trace)
      (value : Except BindingError Value),
      cancel.Call (.ofList [.number x]) session m moves n trace value → n = m ∧ trace.log = []

variable {start m n : Machine} {earlier moves : List Move} {before trace : Trace} {x : Binary64}
  {id : ListenerId} {k : ℤ} {session : Option Session} {value : Except BindingError Value}

theorem listenerId?_number_of_value? (hk : x.value? = some (k : ℚ)) :
    listenerId? (.number x) = .ok (clampInt64 k) := by
  rw [listenerId?, (toInt?_eq_some_iff x k).2 hk]

theorem operation_cancel_number (whole : ∀ k : ℤ, x.value? ≠ some (k : ℚ))
    (session : Option Session) : cancel.operation (.ofList [.number x]) session =
      .error (.invalidArgument "io-cancel" "expected symbol, got number") := by
  refine operation_cancel_of_error ?_ session
  rw [listenerId?, toInt?_eq_none_iff.2 whole]
  rfl

theorem Names.call_iff_of_absent {v : Value} (names : Names m v id)
    (absent : m.registry.contains id = false) :
    cancel.Call (.ofList [v]) session m moves n trace value ↔
      moves = [.call (.cancel id)] ∧ n = m ∧
        trace = [.called (.cancel id), .returned (.cancelled false)] ∧
        value = .ok (.boolean false) := by
  rw [names.same, absent, names.only.absent absent]
  simp only [and_true, and_assoc]

theorem number_names_value (new : start.IsNew) (history : start.run earlier = some (m, before))
    (x : Binary64) : CancelsByValue m x := by
  have clamped {k : ℤ} (hk : x.value? = some (k : ℚ)) : Names m (.number x) (clampInt64 k) :=
    names_of_reads (listenerId?_number_of_value? hk) (new.cancelsOnly history _)
  have names (id : ListenerId) (hid : x.value? = some (id.toInt : ℚ)) : Names m (.number x) id :=
    clampInt64_toInt id ▸ clamped hid
  constructor
  case refuses =>
    intro whole session moves n trace value
    exact call_iff_of_error (operation_cancel_number whole session)
  case names => exact names
  case below => exact fun k hk below => clampInt64_of_lt below ▸ clamped hk
  case above => exact fun k hk above => clampInt64_of_gt above ▸ clamped hk
  case unmatched =>
    intro fits unmatched session moves n trace value called
    by_cases whole : ∃ k : ℤ, x.value? = some (k : ℚ)
    · obtain ⟨k, hk⟩ := whole
      obtain ⟨least, greatest⟩ := fits k hk
      have hid : (Int64.ofInt k).toInt = k :=
        Int64.toInt_ofInt_of_le least (greatest.trans_lt (by decide))
      have hvalue : x.value? = some ((Int64.ofInt k).toInt : ℚ) := by rw [hid, hk]
      obtain ⟨-, rfl, rfl, -⟩ :=
        ((names _ hvalue).call_iff_of_absent (unmatched _ hvalue)).1 called
      exact ⟨rfl, rfl⟩
    · rw [not_exists] at whole
      obtain ⟨-, rfl, rfl, -⟩ := (call_iff_of_error (operation_cancel_number whole session)).1 called
      exact ⟨rfl, rfl⟩

def fromGreatest : Machine :=
  { registry := { resolver := .external, ids := .sequential Int64.maxValue } }

def greatestRegistered : List Move :=
  [.call (.register (.ofList [.symbol "tick"]) none false),
    .reply (.resolved (.ok (some (.directive ⟨0⟩)))), .reply (.setUp (.ok false))]

/-- The greatest number below `2 ^ 63`. -/
def belowTwoPow63 : Binary64 := ⟨0x43dfffffffffffff⟩

def twoPow63 : Binary64 := ⟨0x43e0000000000000⟩

theorem value?_belowTwoPow63 : belowTwoPow63.value? = some ((9223372036854774784 : ℤ) : ℚ) :=
  (toInt?_eq_some_iff _ _).1 (by decide)

theorem value?_twoPow63 : twoPow63.value? = some ((9223372036854775808 : ℤ) : ℚ) :=
  (toInt?_eq_some_iff _ _).1 (by decide)

theorem number_names_value_greatest : fromGreatest.IsNew ∧ ∃ m before,
    fromGreatest.run greatestRegistered = some (m, before) ∧
    m.registry.contains .maxValue = true ∧ CancelsByValue m belowTwoPow63 ∧
    Names m (.number belowTwoPow63) 9223372036854774784 := by
  have new : fromGreatest.IsNew := ⟨rfl, rfl, rfl, rfl⟩
  obtain ⟨m, before, history, stored⟩ : ∃ m before,
      fromGreatest.run greatestRegistered = some (m, before) ∧
      m.registry.contains .maxValue = true := ⟨_, _, rfl, rfl⟩
  have cancels := number_names_value new history belowTwoPow63
  exact ⟨new, m, before, history, stored, cancels, cancels.names _ value?_belowTwoPow63⟩

/-- A number that is no id cancels the listener of the greatest one. -/
theorem number_cancels_other_id : fromGreatest.IsNew ∧ ∃ m before,
    fromGreatest.run greatestRegistered = some (m, before) ∧
    m.registry.contains .maxValue = true ∧
    twoPow63.value? = some ((9223372036854775808 : ℤ) : ℚ) ∧
    (∀ id : ListenerId, twoPow63.value? ≠ some (id.toInt : ℚ)) ∧
    ∃ n, cancel.Call (.ofList [.number twoPow63]) none m [.call (.cancel .maxValue)] n
        [.called (.cancel .maxValue), .published (.removed .maxValue .cancelled),
          .returned (.cancelled true)] (.ok (.boolean true)) ∧
      n.registry.contains .maxValue = false := by
  obtain ⟨m, before, n, history, stored, ran, gone⟩ : ∃ m before n,
      fromGreatest.run greatestRegistered = some (m, before) ∧
      m.registry.contains .maxValue = true ∧
      m.run [.call (.cancel .maxValue)] = some (n, .called (.cancel .maxValue) ::
        ([.published (.removed .maxValue .cancelled)] ++ [.returned (.cancelled true)])) ∧
      n.registry.contains .maxValue = false := ⟨_, _, _, rfl, rfl, rfl, rfl⟩
  refine ⟨⟨rfl, rfl, rfl, rfl⟩, m, before, history, stored, value?_twoPow63, fun id hid => ?_, n,
    .performed rfl (.intro ran rfl (by simp)) rfl, gone⟩
  rw [value?_twoPow63, Option.some_inj, Int.cast_inj] at hid
  have greatest := id.toInt_lt
  omega

end NativeProcedure

end ScriptEvents

/-!
Spellings of ids: the cancelling procedure takes a symbol for an id just when its text is an optional
sign and digits, however many, and the integer that they denote is one of 64 bits. All spellings of
an id name its listener, and a symbol of any other text is refused before anything happens.
-/
namespace ScriptEvents.NativeProcedure

open Text

structure CancelsBySpelling (m : Machine) (text : String) : Prop where
  reads (id : ListenerId) : listenerId? (.symbol text) = .ok id ↔ Denotes text.toList id.toInt
  names (id : ListenerId) : Denotes text.toList id.toInt → Names m (.symbol text) id
  refuses : (∀ k : ℤ, Denotes text.toList k → k < -2 ^ 63 ∨ 2 ^ 63 - 1 < k) →
    ∀ (session : Option Session) (moves : List Move) (n : Machine) (trace : Trace)
      (value : Except BindingError Value),
      cancel.Call (.ofList [.symbol text]) session m moves n trace value ↔
        moves = [] ∧ n = m ∧ trace = [] ∧
          value = .error (.invalidArgument "io-cancel" ("not a listener id: " ++ text))

variable {start m : Machine} {earlier : List Move} {before : Trace} {text : String}
  {id : ListenerId}

theorem listenerId?_symbol_eq_ok_iff :
    listenerId? (.symbol text) = .ok id ↔ Denotes text.toList id.toInt := by
  rw [← readInt64?_eq_some_iff, listenerId?]
  cases readInt64? text with
  | none => simp
  | some read => rw [Except.ok.injEq, Option.some_inj]

theorem listenerId?_symbol_of_unread (unread : ∀ id : ListenerId, ¬ Denotes text.toList id.toInt) :
    listenerId? (.symbol text) =
      .error (.invalidArgument "io-cancel" ("not a listener id: " ++ text)) := by
  have none : readInt64? text = none :=
    Option.eq_none_iff_forall_ne_some.2 fun id h => unread id (readInt64?_eq_some_iff.1 h)
  rw [listenerId?, none]
  rfl

theorem spelling_names_id (new : start.IsNew) (history : start.run earlier = some (m, before))
    (text : String) : CancelsBySpelling m text where
  reads _ := listenerId?_symbol_eq_ok_iff
  names id denotes :=
    names_of_reads (listenerId?_symbol_eq_ok_iff.2 denotes) (new.cancelsOnly history id)
  refuses outside session moves n trace value := by
    have unread (id : ListenerId) : ¬ Denotes text.toList id.toInt := by
      intro denotes
      have least := id.le_toInt
      have greatest := id.toInt_lt
      have beyond := outside id.toInt denotes
      omega
    exact call_iff_of_error (operation_cancel_of_error (listenerId?_symbol_of_unread unread) session)

/-- A minus sign, three zeros that could be left out, and the digits of the least id. -/
def paddedLeast : String := "-0009223372036854775808"

theorem denotes_paddedLeast : Denotes paddedLeast.toList Int64.minValue.toInt :=
  readInt64?_eq_some_iff.1 rfl

theorem spelling_names_id_least : fromLeast.IsNew ∧ ∃ m before,
    fromLeast.run leastRegistered = some (m, before) ∧
    m.registry.contains Int64.minValue = true ∧ CancelsBySpelling m paddedLeast ∧
    Names m (.symbol paddedLeast) Int64.minValue := by
  have new : fromLeast.IsNew := ⟨rfl, rfl, rfl, rfl⟩
  obtain ⟨m, before, history, stored⟩ : ∃ m before,
      fromLeast.run leastRegistered = some (m, before) ∧
      m.registry.contains Int64.minValue = true := ⟨_, _, rfl, rfl⟩
  have cancels := spelling_names_id new history paddedLeast
  exact ⟨new, m, before, history, stored, cancels, cancels.names _ denotes_paddedLeast⟩

end ScriptEvents.NativeProcedure
