import ScriptEvents.Proofs.HostValue.Coercion
/-!
Coercion in stages: some parts of a value may have been coerced before the whole is. Whichever parts
these are, and in whatever order they were coerced, the whole comes out as if coerced at once.
-/
namespace ScriptEvents

namespace HostValue

def within (chosen : List Nat → Bool) (i : Nat) : List Nat → Bool :=
  fun path => chosen (i :: path)

def replacement? (chosen : List Nat → Bool) (h : HostValue) : Option Value :=
  if chosen [] then h.coerce.toOption else none

mutual

/-- The value with its parts at the chosen positions coerced. A chosen part that cannot be coerced
stays, and once one is coerced there is nothing in it to be chosen. -/
def coerceParts (chosen : List Nat → Bool) : HostValue → HostValue
  | list elements =>
    (replacement? chosen (list elements)).elim (list (coercePartsFrom chosen 0 elements)) evaluator
  | h => (replacement? chosen h).elim h evaluator

def coercePartsFrom (chosen : List Nat → Bool) (i : Nat) : List HostValue → List HostValue
  | [] => []
  | h :: hs => coerceParts (within chosen i) h :: coercePartsFrom chosen (i + 1) hs

end

/-- At this position is a chosen part that can be coerced. -/
def Ripe (h : HostValue) (chosen : List Nat → Bool) (path : List Nat) : Prop :=
  chosen path = true ∧ ∃ x v, h.part? path = some x ∧ x.coerce = .ok v

variable {h x : HostValue} {chosen further : List Nat → Bool} {elements : List HostValue}
  {value : Value}

theorem replacement?_eq_some_iff :
    replacement? chosen h = some value ↔ chosen [] = true ∧ h.coerce = .ok value := by
  unfold replacement?
  cases h.coerce <;> simp [Except.toOption]

theorem replacement?_eq_none_iff : replacement? chosen h = none ↔ ¬ h.Ripe chosen [] := by
  rw [Option.eq_none_iff_forall_ne_some]
  simp [Ripe, replacement?_eq_some_iff, forall_comm]

theorem coerceParts_of_ripe (here : chosen [] = true) (coerced : h.coerce = .ok value) :
    h.coerceParts chosen = evaluator value := by
  have replaced := replacement?_eq_some_iff.2 ⟨here, coerced⟩
  cases h <;> rw [coerceParts, replaced, Option.elim_some] <;> nofun

theorem coerceParts_list (unripe : ¬ (list elements).Ripe chosen []) :
    (list elements).coerceParts chosen = list (coercePartsFrom chosen 0 elements) := by
  rw [coerceParts, replacement?_eq_none_iff.2 unripe, Option.elim_none]

theorem coerceParts_of_unlisted (unlisted : ∀ elements, h ≠ list elements)
    (unripe : ¬ h.Ripe chosen []) : h.coerceParts chosen = h := by
  rw [coerceParts, replacement?_eq_none_iff.2 unripe, Option.elim_none]
  exact unlisted

theorem length_coercePartsFrom (chosen : List Nat → Bool) (i : Nat) (elements : List HostValue) :
    (coercePartsFrom chosen i elements).length = elements.length := by
  induction elements generalizing i with
  | nil => simp [coercePartsFrom]
  | cons e elements ih => simp [coercePartsFrom, ih]

theorem getElem?_coercePartsFrom (chosen : List Nat → Bool) (i j : Nat)
    (elements : List HostValue) : (coercePartsFrom chosen i elements)[j]? =
      elements[j]?.map (coerceParts (within chosen (i + j))) := by
  induction elements generalizing i j with
  | nil => simp [coercePartsFrom]
  | cons e elements ih =>
    cases j with
    | zero => simp [coercePartsFrom]
    | succ j =>
      rw [coercePartsFrom, List.getElem?_cons_succ, List.getElem?_cons_succ, ih,
        Nat.add_right_comm, Nat.add_assoc]

theorem coerceElements_congr {others : List HostValue}
    (same : elements.map coerce = others.map coerce) (done : List Value) :
    coerceElements elements done = coerceElements others done := by
  induction elements generalizing others done with
  | nil => rw [List.map_eq_nil_iff.1 same.symm]
  | cons e elements ih =>
    cases others with
    | nil => cases same
    | cons e' others =>
      obtain ⟨hfirst, hrest⟩ := List.cons.inj same
      rw [coerceElements, coerceElements, hfirst]
      split
      next => exact ih hrest _
      next => rfl

theorem map_coerce_coercePartsFrom
    (ih : ∀ e ∈ elements, ∀ chosen, (coerceParts chosen e).coerce = e.coerce)
    (chosen : List Nat → Bool) (i : Nat) :
    (coercePartsFrom chosen i elements).map coerce = elements.map coerce := by
  refine List.ext_getElem? fun j => ?_
  rw [List.getElem?_map, List.getElem?_map, getElem?_coercePartsFrom, Option.map_map]
  refine Option.map_congr fun e he => ?_
  exact ih e (List.mem_of_getElem? he) _

theorem coerce_coerceParts (h : HostValue) (chosen : List Nat → Bool) :
    (h.coerceParts chosen).coerce = h.coerce := by
  induction h using elements_induction generalizing chosen with
  | unlisted h unlisted =>
    by_cases ripe : h.Ripe chosen []
    · obtain ⟨here, x, v, hx, coerced⟩ := ripe
      cases hx
      rw [coerceParts_of_ripe here coerced, coerced, coerce]
    · rw [coerceParts_of_unlisted unlisted ripe]
  | list elements ih =>
    by_cases ripe : (list elements).Ripe chosen []
    · obtain ⟨here, x, v, hx, coerced⟩ := ripe
      cases hx
      rw [coerceParts_of_ripe here coerced, coerced, coerce]
    · rw [coerceParts_list ripe, coerce, coerce,
        coerceElements_congr (map_coerce_coercePartsFrom ih chosen 0)]

theorem coerceArguments_congr {h' : HostValue} (same : h.coerce = h'.coerce) (quote : Bool) :
    h.coerceArguments quote = h'.coerceArguments quote := by
  rw [coerceArguments, coerceArguments, same]

theorem ripe_cons_iff {i : Nat} {path : List Nat} : (list elements).Ripe chosen (i :: path) ↔
    ∃ e, elements[i]? = some e ∧ e.Ripe (within chosen i) path := by
  unfold Ripe within
  cases he : elements[i]? <;> simp [he]

theorem part?_coerceParts {path : List Nat}
    (outside : ∀ outer, outer <+: path → outer ≠ path → ¬ h.Ripe chosen outer) :
    (h.coerceParts chosen).part? path =
      (h.part? path).map (coerceParts fun inner => chosen (path ++ inner)) := by
  induction path generalizing h chosen with
  | nil => simp
  | cons i path ih =>
    have unripe := outside [] List.nil_prefix (by simp)
    by_cases listed : ∃ elements, h = list elements
    · obtain ⟨elements, rfl⟩ := listed
      rw [coerceParts_list unripe, part?_list_cons, part?_list_cons, getElem?_coercePartsFrom,
        Option.bind_map, Option.map_bind, Nat.zero_add]
      refine Option.bind_congr fun e he => ?_
      refine ih fun outer before proper ripe => ?_
      exact outside (i :: outer) (List.cons_prefix_cons.2 ⟨rfl, before⟩) (by simpa using proper)
        (ripe_cons_iff.2 ⟨e, he, ripe⟩)
    · have unlisted : ∀ elements, h ≠ list elements := fun elements heq => listed ⟨elements, heq⟩
      rw [coerceParts_of_unlisted unlisted unripe, part?_cons_eq_none unlisted, Option.map_none]

theorem coerceParts_of_unripe (unripe : ¬ h.Ripe chosen []) : h.coerceParts chosen = h ∨
    ∃ elements others, h = list elements ∧ h.coerceParts chosen = list others ∧
      others.length = elements.length := by
  by_cases listed : ∃ elements, h = list elements
  · obtain ⟨elements, rfl⟩ := listed
    exact .inr ⟨elements, _, rfl, coerceParts_list unripe, length_coercePartsFrom ..⟩
  · exact .inl (coerceParts_of_unlisted (fun elements heq => listed ⟨elements, heq⟩) unripe)

theorem coerceParts_evaluator (value : Value) (chosen : List Nat → Bool) :
    (evaluator value).coerceParts chosen = evaluator value := by
  by_cases ripe : (evaluator value).Ripe chosen []
  · exact coerceParts_of_ripe ripe.1 (by rw [coerce])
  · exact coerceParts_of_unlisted (by simp) ripe

def either (chosen further : List Nat → Bool) : List Nat → Bool :=
  fun path => chosen path || further path

theorem ripe_either_iff {path : List Nat} :
    h.Ripe (either chosen further) path ↔ h.Ripe chosen path ∨ h.Ripe further path := by
  simp [Ripe, either, or_and_right]

theorem coerceParts_coerceParts_of_ripe (ripe : h.Ripe (either chosen further) []) :
    (h.coerceParts chosen).coerceParts further = h.coerceParts (either chosen further) := by
  obtain ⟨here, _, value, hx, coerced⟩ := ripe
  cases hx
  rw [coerceParts_of_ripe here coerced]
  by_cases first : chosen [] = true
  · rw [coerceParts_of_ripe first coerced, coerceParts_evaluator]
  · have second : further [] = true := by simpa [either, first] using here
    exact coerceParts_of_ripe second ((coerce_coerceParts h chosen).trans coerced)

theorem coercePartsFrom_coercePartsFrom
    (ih : ∀ e ∈ elements, ∀ chosen further, (coerceParts chosen e).coerceParts further =
      e.coerceParts (either chosen further)) (chosen further : List Nat → Bool) (i : Nat) :
    coercePartsFrom further i (coercePartsFrom chosen i elements) =
      coercePartsFrom (either chosen further) i elements := by
  refine List.ext_getElem? fun j => ?_
  rw [getElem?_coercePartsFrom, getElem?_coercePartsFrom, getElem?_coercePartsFrom, Option.map_map]
  refine Option.map_congr fun e he => ?_
  exact ih e (List.mem_of_getElem? he) _ _

/-- Two goes do what one does. -/
theorem coerceParts_coerceParts (h : HostValue) (chosen further : List Nat → Bool) :
    (h.coerceParts chosen).coerceParts further = h.coerceParts (either chosen further) := by
  induction h using elements_induction generalizing chosen further with
  | unlisted h unlisted =>
    by_cases ripe : h.Ripe (either chosen further) []
    · exact coerceParts_coerceParts_of_ripe ripe
    · obtain ⟨first, second⟩ := not_or.1 (mt ripe_either_iff.2 ripe)
      rw [coerceParts_of_unlisted unlisted first, coerceParts_of_unlisted unlisted second,
        coerceParts_of_unlisted unlisted ripe]
  | list elements ih =>
    by_cases ripe : (list elements).Ripe (either chosen further) []
    · exact coerceParts_coerceParts_of_ripe ripe
    · obtain ⟨first, second⟩ := not_or.1 (mt ripe_either_iff.2 ripe)
      have second' : ¬ (list (coercePartsFrom chosen 0 elements)).Ripe further [] := by
        rw [← coerceParts_list first]
        simpa [Ripe, coerce_coerceParts] using second
      rw [coerceParts_list first, coerceParts_list second', coerceParts_list ripe,
        coercePartsFrom_coercePartsFrom ih]

structure CoercesInStages (h : HostValue) (chosen : List Nat → Bool) : Prop where
  -- A chosen part that can be coerced, and is in no other, is replaced by its coerced form.
  replaced (path : List Nat) (x : HostValue) (value : Value) :
    (∀ outer, outer <+: path → outer ≠ path → ¬ h.Ripe chosen outer) → chosen path = true →
      h.part? path = some x → x.coerce = .ok value →
      (h.coerceParts chosen).part? path = some (evaluator value)
  kept (path : List Nat) (x : HostValue) :
    (∀ outer, outer <+: path → ¬ h.Ripe chosen outer) → h.part? path = some x →
      (h.coerceParts chosen).part? path = some x ∨
        ∃ elements others, x = list elements ∧ others.length = elements.length ∧
          (h.coerceParts chosen).part? path = some (list others)
  again (further : List Nat → Bool) :
    (h.coerceParts chosen).coerceParts further = h.coerceParts (either chosen further)
  coerced : (h.coerceParts chosen).coerce = h.coerce
  supplied (quote : Bool) :
    (h.coerceParts chosen).coerceArguments quote = h.coerceArguments quote

theorem coerces_in_stages (h : HostValue) (chosen : List Nat → Bool) :
    h.CoercesInStages chosen where
  replaced path x value outside here hx coerced := by
    rw [part?_coerceParts outside, hx, Option.map_some]
    exact congrArg some (coerceParts_of_ripe (by simpa using here) coerced)
  kept path x outside hx := by
    rw [part?_coerceParts fun outer before _ => outside outer before, hx, Option.map_some]
    have unripe : ¬ x.Ripe (fun inner => chosen (path ++ inner)) [] := by
      rintro ⟨here, _, value, hself, coerced⟩
      cases hself
      exact outside path List.prefix_rfl ⟨by simpa using here, x, value, hx, coerced⟩
    rcases coerceParts_of_unripe unripe with same | ⟨elements, others, hlist, hothers, hlength⟩
    · exact .inl (congrArg some same)
    · exact .inr ⟨elements, others, hlist, hlength, congrArg some hothers⟩
  again further := coerceParts_coerceParts h chosen further
  coerced := coerce_coerceParts h chosen
  supplied quote := coerceArguments_congr (coerce_coerceParts h chosen) quote

-- Of two chosen parts of which one is in the other the outer one is replaced, and bytes stay.
example : (list [list [null], bytes []]).coerceParts (· ∈ [[0], [0, 0], [1]]) =
    list [evaluator (.ofList [.nil]), bytes []] := by
  rfl

end HostValue

end ScriptEvents
