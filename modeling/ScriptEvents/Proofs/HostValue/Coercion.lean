import Mathlib.Data.List.Forall2
import ScriptEvents.HostValue
/-!
Coercion goes by positions. A value is coerced unless some position of its nested lists holds a map
or bytes; the first of these in reading order is to blame. Where all goes well, every list becomes
the proper list of its coerced elements, in its place.
-/
namespace ScriptEvents

namespace Value

def part? : Value → List Nat → Option Value
  | v, [] => some v
  | v, i :: path => v.toList?.bind fun elements => elements[i]?.bind (part? · path)

@[simp] theorem part?_nil (v : Value) : v.part? [] = some v := by
  simp [part?]

@[simp] theorem part?_ofList_cons (vs : List Value) (i : Nat) (path : List Nat) :
    (ofList vs).part? (i :: path) = vs[i]?.bind (part? · path) := by
  simp [part?, toList?_ofList]

end Value

namespace HostValue

def isForeign : HostValue → Bool
  | map _ | bytes _ => true
  | _ => false

/-- The value at a position of nested lists: the indices of the elements to go through. What is in a
map or in a value of the evaluator has no position. -/
def part? : HostValue → List Nat → Option HostValue
  | h, [] => some h
  | list elements, i :: path => elements[i]?.bind (part? · path)
  | _, _ :: _ => none

/-- The position is the first with a map or bytes. Positions are read as in a printed text: an
element after those to its left, and a list before its elements. -/
structure FirstForeign (h : HostValue) (path : List Nat) (x : HostValue) : Prop where
  here : h.part? path = some x
  foreign : x.isForeign = true
  first : ∀ earlier < path, ∀ y, h.part? earlier = some y → y.isForeign = false

inductive Spreads : HostValue → List Value → Prop where
  | null : Spreads null []
  | list {elements : List HostValue} {values : List Value}
      (coerced : List.Forall₂ (fun e v => e.coerce = .ok v) elements values) :
      Spreads (list elements) values
  | proper (values : List Value) : Spreads (evaluator (.ofList values)) values
  | improper {value : Value} (h : ∀ values, value ≠ .ofList values) :
      Spreads (evaluator value) [value]
  | single {h : HostValue} {value : Value} (absent : h ≠ HostValue.null)
      (unlisted : ∀ elements, h ≠ HostValue.list elements)
      (built : ∀ value, h ≠ HostValue.evaluator value) (coerced : h.coerce = .ok value) :
      Spreads h [value]

@[simp] theorem part?_nil (h : HostValue) : h.part? [] = some h := by
  simp [part?]

@[simp] theorem part?_list_cons (elements : List HostValue) (i : Nat) (path : List Nat) :
    (list elements).part? (i :: path) = elements[i]?.bind (part? · path) := by
  simp [part?]

theorem part?_cons_eq_none {h : HostValue} (unlisted : ∀ elements, h ≠ list elements) (i : Nat)
    (path : List Nat) : h.part? (i :: path) = none := by
  cases h with
  | list elements => exact absurd rfl (unlisted elements)
  | _ => simp [part?]

theorem part?_eq_some_of_unlisted {h x : HostValue} (unlisted : ∀ elements, h ≠ list elements)
    {path : List Nat} : h.part? path = some x ↔ path = [] ∧ h = x := by
  cases path with
  | nil => simp
  | cons i path => simp [part?_cons_eq_none unlisted]

theorem elements_induction {P : HostValue → Prop}
    (unlisted : ∀ h, (∀ elements, h ≠ list elements) → P h)
    (list : ∀ elements, (∀ e ∈ elements, P e) → P (list elements)) (h : HostValue) : P h := by
  cases h with
  | list elements => exact list elements fun e _ => elements_induction unlisted list e
  | _ => exact unlisted _ nofun
termination_by sizeOf h
decreasing_by
  have := List.sizeOf_lt_of_mem ‹_›
  simp only [HostValue.list.sizeOf_spec]
  omega

theorem coerce_of_unlisted {h : HostValue} (unlisted : ∀ elements, h ≠ list elements) :
    (h.isForeign = true ∧ h.coerce = .error (.unprocessable h.kind)) ∨
      h.isForeign = false ∧ ∃ v, h.coerce = .ok v := by
  cases h with
  | list elements => exact absurd rfl (unlisted elements)
  | _ => simp [isForeign, coerce, kind]

theorem coerceElements_eq_ok_iff {elements : List HostValue} {done values : List Value} :
    coerceElements elements done = .ok values ↔
      ∃ coerced, List.Forall₂ (fun e v => e.coerce = .ok v) elements coerced ∧
        values = done.reverse ++ coerced := by
  induction elements generalizing done with
  | nil => simp [coerceElements, eq_comm]
  | cons e elements ih =>
    rw [coerceElements]
    cases he : e.coerce with
    | error => simp [List.forall₂_cons_left_iff, he]
    | ok v => simp [List.forall₂_cons_left_iff, he, ih]

def Refuses (elements : List HostValue) (i : Nat) (e : CoercionError) : Prop :=
  ∃ x : HostValue, elements[i]? = some x ∧ x.coerce = .error e ∧
    ∀ j < i, ∀ y : HostValue, elements[j]? = some y → ∃ v, y.coerce = .ok v

theorem refuses_cons_zero {first : HostValue} {elements : List HostValue} {e : CoercionError} :
    Refuses (first :: elements) 0 e ↔ first.coerce = .error e := by
  simp [Refuses]

theorem refuses_cons_succ {first : HostValue} {elements : List HostValue} {i : Nat}
    {e : CoercionError} :
    Refuses (first :: elements) (i + 1) e ↔
      (∃ v, first.coerce = .ok v) ∧ Refuses elements i e := by
  constructor
  · rintro ⟨x, hx, herror, before⟩
    refine ⟨before 0 (by omega) first rfl, x, by simpa using hx, herror, fun j hj y hy => ?_⟩
    exact before (j + 1) (by omega) y (by simpa using hy)
  · rintro ⟨hfirst, x, hx, herror, before⟩
    refine ⟨x, by simpa using hx, herror, fun j hj y hy => ?_⟩
    cases j with
    | zero => simpa [Option.some.inj hy] using hfirst
    | succ j => exact before j (by omega) y (by simpa using hy)

theorem coerceElements_eq_error_iff {elements : List HostValue} {done : List Value}
    {e : CoercionError} :
    coerceElements elements done = .error e ↔ ∃ i, Refuses elements i e := by
  induction elements generalizing done with
  | nil => simp [coerceElements, Refuses]
  | cons first elements ih =>
    rw [coerceElements]
    constructor
    · intro h
      cases hfirst : first.coerce with
      | error e' =>
        rw [hfirst] at h
        cases h
        exact ⟨0, refuses_cons_zero.2 hfirst⟩
      | ok v =>
        rw [hfirst] at h
        obtain ⟨i, refuses⟩ := ih.1 h
        exact ⟨i + 1, refuses_cons_succ.2 ⟨⟨v, hfirst⟩, refuses⟩⟩
    · rintro ⟨i, refuses⟩
      cases i with
      | zero => simp [refuses_cons_zero.1 refuses]
      | succ i =>
        obtain ⟨⟨v, hfirst⟩, refuses⟩ := refuses_cons_succ.1 refuses
        simpa [hfirst] using ih.2 ⟨i, refuses⟩

theorem coerce_list_eq_ok_iff {elements : List HostValue} {value : Value} :
    (list elements).coerce = .ok value ↔
      ∃ values, List.Forall₂ (fun e v => e.coerce = .ok v) elements values ∧
        value = .ofList values := by
  rw [coerce]
  constructor
  · intro h
    split at h
    next values hvalues =>
      cases h
      obtain ⟨_, helements, rfl⟩ := coerceElements_eq_ok_iff.1 hvalues
      exact ⟨_, helements, rfl⟩
    next => cases h
  · rintro ⟨values, helements, rfl⟩
    have all : coerceElements elements [] = .ok values :=
      coerceElements_eq_ok_iff.2 ⟨values, helements, rfl⟩
    rw [all]

theorem coerce_list_eq_error_iff {elements : List HostValue} {e : CoercionError} :
    (list elements).coerce = .error e ↔ ∃ i, Refuses elements i e := by
  have refused : coerceElements elements [] = .error e ↔ ∃ i, Refuses elements i e :=
    coerceElements_eq_error_iff
  rw [← refused, coerce]
  cases coerceElements elements [] <;> simp

theorem exists_coerced {elements : List HostValue} {values : List Value}
    (coerced : List.Forall₂ (fun e v => e.coerce = .ok v) elements values) {i : Nat}
    {e : HostValue} (he : elements[i]? = some e) :
    ∃ v, values[i]? = some v ∧ e.coerce = .ok v := by
  obtain ⟨hi, rfl⟩ := List.getElem?_eq_some_iff.1 he
  have hi' : i < values.length := coerced.length_eq ▸ hi
  exact ⟨values[i], List.getElem?_eq_getElem hi', coerced.get hi hi'⟩

/-- A value is coerced unless some position holds a map or bytes. -/
theorem exists_coerce_eq_ok_iff (h : HostValue) :
    (∃ v, h.coerce = .ok v) ↔ ∀ path x, h.part? path = some x → x.isForeign = false := by
  induction h using elements_induction with
  | unlisted h unlisted =>
    simp only [part?_eq_some_of_unlisted unlisted]
    rcases coerce_of_unlisted unlisted with ⟨foreign, refused⟩ | ⟨native, coerced⟩
    · simp [refused, foreign]
    · simp [coerced, native]
  | list elements ih =>
    constructor
    · rintro ⟨_, hcoerce⟩ path x hx
      obtain ⟨values, coerced, -⟩ := coerce_list_eq_ok_iff.1 hcoerce
      cases path with
      | nil =>
        cases hx
        rfl
      | cons i path =>
        rw [part?_list_cons] at hx
        obtain ⟨e, he, hx⟩ := Option.bind_eq_some_iff.1 hx
        obtain ⟨v, -, hv⟩ := exists_coerced coerced he
        exact (ih e (List.mem_of_getElem? he)).1 ⟨v, hv⟩ path x hx
    · intro native
      cases hcoerce : (list elements).coerce with
      | ok v => exact ⟨v, rfl⟩
      | error e =>
        obtain ⟨i, x, hx, herror, -⟩ := coerce_list_eq_error_iff.1 hcoerce
        obtain ⟨v, hv⟩ := (ih x (List.mem_of_getElem? hx)).2 fun path y hy =>
          native (i :: path) y (by simp [hx, hy])
        cases herror.symm.trans hv

theorem firstForeign_list_cons_iff {elements : List HostValue} {i : Nat} {path : List Nat}
    {y : HostValue} : (list elements).FirstForeign (i :: path) y ↔
      ∃ x : HostValue, elements[i]? = some x ∧ x.FirstForeign path y ∧
        ∀ j < i, ∀ z : HostValue, elements[j]? = some z → ∃ v, z.coerce = .ok v := by
  constructor
  · rintro ⟨here, foreign, first⟩
    rw [part?_list_cons] at here
    obtain ⟨x, hx, here⟩ := Option.bind_eq_some_iff.1 here
    refine ⟨x, hx, ⟨here, foreign, fun earlier hlt z hz => ?_⟩, fun j hlt z hz => ?_⟩
    · exact first (i :: earlier) (List.cons_lt_cons_iff.2 (.inr ⟨rfl, hlt⟩)) z (by simp [hx, hz])
    · refine (exists_coerce_eq_ok_iff z).2 fun earlier w hw => ?_
      exact first (j :: earlier) (List.cons_lt_cons_iff.2 (.inl hlt)) w (by simp [hz, hw])
  · rintro ⟨x, hx, ⟨here, foreign, first⟩, before⟩
    refine ⟨by simp [hx, here], foreign, fun earlier hearlier z hz => ?_⟩
    cases earlier with
    | nil =>
      cases hz
      rfl
    | cons j earlier =>
      rw [part?_list_cons] at hz
      obtain ⟨w, hw, hz⟩ := Option.bind_eq_some_iff.1 hz
      rcases List.cons_lt_cons_iff.1 hearlier with hlt | ⟨rfl, hlt⟩
      · exact (exists_coerce_eq_ok_iff w).1 (before j hlt w hw) earlier z hz
      · cases hx.symm.trans hw
        exact first earlier hlt z hz

theorem firstForeign_of_unlisted {h x : HostValue} (unlisted : ∀ elements, h ≠ list elements)
    {path : List Nat} : h.FirstForeign path x ↔ path = [] ∧ h = x ∧ h.isForeign = true := by
  constructor
  · rintro ⟨here, foreign, -⟩
    obtain ⟨rfl, rfl⟩ := (part?_eq_some_of_unlisted unlisted).1 here
    exact ⟨rfl, rfl, foreign⟩
  · rintro ⟨rfl, rfl, foreign⟩
    exact ⟨by simp, foreign, by simp⟩

theorem coerce_eq_error_iff {h : HostValue} {e : CoercionError} :
    h.coerce = .error e ↔ ∃ path x, h.FirstForeign path x ∧ e = .unprocessable x.kind := by
  induction h using elements_induction with
  | unlisted h unlisted =>
    simp only [firstForeign_of_unlisted unlisted]
    rcases coerce_of_unlisted unlisted with ⟨foreign, refused⟩ | ⟨native, v, coerced⟩
    · simp [foreign, refused, eq_comm]
    · simp [native, coerced]
  | list elements ih =>
    rw [coerce_list_eq_error_iff]
    constructor
    · rintro ⟨i, x, hx, herror, before⟩
      obtain ⟨path, y, first, he⟩ := (ih x (List.mem_of_getElem? hx)).1 herror
      exact ⟨i :: path, y, firstForeign_list_cons_iff.2 ⟨x, hx, first, before⟩, he⟩
    · rintro ⟨path, y, first, he⟩
      cases path with
      | nil =>
        cases first.here
        cases first.foreign
      | cons i path =>
        obtain ⟨x, hx, first, before⟩ := firstForeign_list_cons_iff.1 first
        exact ⟨i, x, hx, (ih x (List.mem_of_getElem? hx)).2 ⟨path, y, first, he⟩, before⟩

/-- What stands at a position is coerced to what stands there in the whole coerced. -/
theorem part?_coerce {h x : HostValue} {value : Value} {path : List Nat}
    (coerced : h.coerce = .ok value) (here : h.part? path = some x) :
    ∃ v, value.part? path = some v ∧ x.coerce = .ok v := by
  induction path generalizing h value with
  | nil =>
    cases here
    exact ⟨value, by simp, coerced⟩
  | cons i path ih =>
    cases h with
    | list elements =>
      obtain ⟨values, helements, rfl⟩ := coerce_list_eq_ok_iff.1 coerced
      rw [part?_list_cons] at here
      obtain ⟨e, he, here⟩ := Option.bind_eq_some_iff.1 here
      obtain ⟨w, hw, coerced⟩ := exists_coerced helements he
      obtain ⟨v, hv, hx⟩ := ih coerced here
      exact ⟨v, by simp [hw, hv], hx⟩
    | _ => simp [part?] at here

theorem arguments_ofList (values : List Value) : arguments (.ofList values) = values := by
  simp [arguments, Value.toList?_ofList]

theorem coerceArguments_eq_ok_iff {h : HostValue} {supplied : List Value} :
    h.coerceArguments false = .ok supplied ↔
      ∃ value, h.coerce = .ok value ∧ supplied = arguments value := by
  unfold coerceArguments
  cases h.coerce <;> simp [eq_comm]

theorem coerceArguments_eq_error_iff {h : HostValue} {quote : Bool} {e : CoercionError} :
    h.coerceArguments quote = .error e ↔ h.coerce = .error e := by
  unfold coerceArguments
  cases h.coerce <;> simp

theorem arguments_of_improper {value : Value} (h : ∀ values, value ≠ .ofList values) :
    arguments value = [value] := by
  have improper : value.isList = false := by
    rw [← Bool.not_eq_true]
    exact fun proper => h _ (Value.ofList_items proper).symm
  simp [arguments, Value.toList?, improper]

theorem arguments_of_single {h : HostValue} {value : Value} (absent : h ≠ null)
    (unlisted : ∀ elements, h ≠ list elements) (built : ∀ value, h ≠ evaluator value)
    (coerced : h.coerce = .ok value) : arguments value = [value] := by
  cases h with
  | null => exact absurd rfl absent
  | list elements => exact absurd rfl (unlisted elements)
  | evaluator value => exact absurd rfl (built value)
  | map | bytes => simp [coerce] at coerced
  | _ =>
    simp only [coerce, Except.ok.injEq] at coerced
    subst coerced
    rfl

theorem Spreads.coerced {h : HostValue} {supplied : List Value} (spreads : h.Spreads supplied) :
    ∃ value, h.coerce = .ok value ∧ supplied = arguments value := by
  cases spreads with
  | null => exact ⟨.nil, by simp [coerce], rfl⟩
  | list coerced =>
    exact ⟨_, coerce_list_eq_ok_iff.2 ⟨_, coerced, rfl⟩, (arguments_ofList _).symm⟩
  | proper => exact ⟨_, by rw [coerce], (arguments_ofList _).symm⟩
  | improper h => exact ⟨_, by rw [coerce], (arguments_of_improper h).symm⟩
  | single absent unlisted built coerced =>
    exact ⟨_, coerced, (arguments_of_single absent unlisted built coerced).symm⟩

theorem spreads_arguments {h : HostValue} {value : Value} (coerced : h.coerce = .ok value) :
    h.Spreads (arguments value) := by
  cases h with
  | null =>
    rw [coerce] at coerced
    cases coerced
    exact .null
  | list elements =>
    obtain ⟨values, helements, rfl⟩ := coerce_list_eq_ok_iff.1 coerced
    rw [arguments_ofList]
    exact .list helements
  | evaluator built =>
    rw [coerce] at coerced
    cases coerced
    by_cases proper : ∃ values, value = .ofList values
    · obtain ⟨values, rfl⟩ := proper
      rw [arguments_ofList]
      exact .proper values
    · rw [not_exists] at proper
      rw [arguments_of_improper proper]
      exact .improper proper
  | _ =>
    have alone := arguments_of_single (by simp) (by simp) (by simp) coerced
    rw [alone]
    exact .single (by simp) (by simp) (by simp) coerced

theorem coerceArguments_eq_ok_iff_spreads {h : HostValue} {supplied : List Value} :
    h.coerceArguments false = .ok supplied ↔ h.Spreads supplied := by
  rw [coerceArguments_eq_ok_iff]
  constructor
  · rintro ⟨value, coerced, rfl⟩
    exact spreads_arguments coerced
  · exact Spreads.coerced

structure CoercesByPosition (h : HostValue) : Prop where
  fails_iff : (∃ e, h.coerce = .error e) ↔ ∃ path x, h.part? path = some x ∧ x.isForeign = true
  error_iff (e : CoercionError) :
    h.coerce = .error e ↔ ∃ path x, h.FirstForeign path x ∧ e = .unprocessable x.kind
  lists (value : Value) : h.coerce = .ok value →
    ∀ path elements, h.part? path = some (list elements) → ∃ values : List Value,
      value.part? path = some (.ofList values) ∧
        List.Forall₂ (fun e v => e.coerce = .ok v) elements values
  arguments_iff (supplied : List Value) :
    h.coerceArguments false = .ok supplied ↔ h.Spreads supplied
  refuses_iff (e : CoercionError) : h.coerceArguments false = .error e ↔ h.coerce = .error e

theorem coerces_by_position (h : HostValue) : h.CoercesByPosition where
  fails_iff := by
    have coerced := exists_coerce_eq_ok_iff h
    cases hcoerce : h.coerce with
    | ok value =>
      have native := coerced.1 ⟨value, hcoerce⟩
      constructor
      · nofun
      · rintro ⟨path, x, here, foreign⟩
        cases (native path x here).symm.trans foreign
    | error e =>
      refine iff_of_true ⟨e, rfl⟩ ?_
      obtain ⟨path, x, first, -⟩ := coerce_eq_error_iff.1 hcoerce
      exact ⟨path, x, first.here, first.foreign⟩
  error_iff e := coerce_eq_error_iff
  lists value coerced path elements here := by
    obtain ⟨v, hv, helements⟩ := part?_coerce coerced here
    obtain ⟨values, coerced, rfl⟩ := coerce_list_eq_ok_iff.1 helements
    exact ⟨values, hv, coerced⟩
  arguments_iff supplied := coerceArguments_eq_ok_iff_spreads
  refuses_iff e := coerceArguments_eq_error_iff

-- What is in a map does not count, and bytes in a list to the left of the map come first.
example : (list [null, list [string "a", bytes [0]], map [("k", list [bytes []])]]).coerce =
    .error (.unprocessable "bytes") := by
  rfl

end HostValue

end ScriptEvents
