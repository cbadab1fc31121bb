import ScriptEvents.Procedures
import ScriptEvents.Proofs.Machine.Contract
/-!
Calls from start to end: an operation from its call to its outcome, and a procedure from its
arguments to its value. Whatever collaborators do in between is part of it.
-/
namespace ScriptEvents

namespace Trace

theorem Balanced.not_returned {a rest : Trace} (ha : a.Balanced) (outcome : Outcome) :
    ¬ Balanced (a ++ .returned outcome :: rest) := by
  intro h
  have cut := closes_append ha 0 (.returned outcome :: rest)
  rw [Nat.add_zero, closes_returned_zero] at cut
  cases cut.symm.trans h

theorem returned_inj {a b rest : Trace} {outcome given : Outcome} (ha : a.Balanced)
    (hb : b.Balanced) (h : a ++ .returned given :: rest = b ++ [.returned outcome]) :
    a = b ∧ given = outcome ∧ rest = [] := by
  rcases List.append_eq_append_iff.1 h with ⟨c, rfl, hc⟩ | ⟨c, rfl, hc⟩
  · cases c with
    | nil =>
      cases hc
      exact ⟨(List.append_nil a).symm, rfl, rfl⟩
    | cons e c =>
      cases hc
      exact absurd hb (ha.not_returned given)
  · cases c with
    | nil =>
      cases hc
      exact ⟨List.append_nil b, rfl, rfl⟩
    | cons e c => simp at hc

end Trace

namespace Machine

/-- The operation is called on the machine and is over after these moves, the last of which ends
it. -/
inductive Performs (m : Machine) (operation : Operation) :
    List Move → Machine → Trace → Outcome → Prop where
  | intro {during : List Move} {n : Machine} {passed : Trace} {outcome : Outcome}
      (ran : m.run (.call operation :: during) =
        some (n, .called operation :: (passed ++ [.returned outcome])))
      (balanced : passed.Balanced)
      (prompt : ∀ earlier change, during ≠ earlier ++ [.edit change]) :
      Performs m operation (.call operation :: during) n
        (.called operation :: (passed ++ [.returned outcome])) outcome

variable {start m n k : Machine} {moves during : List Move} {trace seen passed : Trace}
  {operation : Operation} {outcome given : Outcome} {c : Contract}

theorem edits_of_run (history : m.run moves = some (n, [])) :
    ∀ move ∈ moves, ∃ change, move = .edit change := by
  induction moves generalizing m with
  | nil => nofun
  | cons move moves ih =>
    obtain ⟨next, seen, later, hmove, hrest, hnil⟩ := run_cons_eq_some.1 history
    obtain ⟨rfl, rfl⟩ := List.append_eq_nil_iff.1 hnil.symm
    rw [List.forall_mem_cons]
    refine ⟨?_, ih hrest⟩
    cases move with
    | edit change => exact ⟨change, rfl⟩
    | reply reply =>
      obtain ⟨_, hreplied⟩ := replied_of_step hmove
      cases hreplied
    | call operation =>
      simp only [step] at hmove
      split at hmove <;> cases hmove

theorem during_eq_nil (history : m.run during = some (n, []))
    (prompt : ∀ earlier change, during ≠ earlier ++ [.edit change]) : during = [] ∧ n = m := by
  rcases List.eq_nil_or_concat during with rfl | ⟨earlier, move, rfl⟩
  · cases history
    exact ⟨rfl, rfl⟩
  · obtain ⟨change, rfl⟩ := edits_of_run history move (by simp)
    exact absurd List.concat_eq_append (prompt earlier change)

theorem performs_iff_of_step (balanced : seen.Balanced) (called : m.step (.call operation) =
      some (k, .called operation :: (seen ++ [.returned given]))) :
    m.Performs operation moves n trace outcome ↔ moves = [.call operation] ∧ n = k ∧
      trace = .called operation :: (seen ++ [.returned given]) ∧ outcome = given := by
  constructor
  · rintro ⟨ran, hpassed, prompt⟩
    obtain ⟨_, _, later, hcall, hrest, htrace⟩ := run_cons_eq_some.1 ran
    cases called.symm.trans hcall
    rw [List.cons_append, List.append_assoc, List.singleton_append] at htrace
    obtain ⟨rfl, rfl, rfl⟩ := Trace.returned_inj balanced hpassed (List.cons.inj htrace).2.symm
    obtain ⟨rfl, rfl⟩ := during_eq_nil hrest prompt
    exact ⟨rfl, rfl, rfl, rfl⟩
  · rintro ⟨rfl, rfl, rfl, rfl⟩
    refine .intro ?_ balanced (by simp)
    exact run_cons_eq_some.2 ⟨_, _, [], called, rfl, (List.append_nil _).symm⟩

/-- A contract holds of every operation on a machine that has come about. -/
theorem IsNew.ends_of_performs (new : start.IsNew) (kept : c.Kept start)
    (history : start.run moves = some (m, trace))
    (performs : m.Performs operation during n seen outcome) :
    ∃ passed, seen = .called operation :: (passed ++ [.returned outcome]) ∧ passed.Balanced ∧
      c.Ends trace operation passed outcome := by
  obtain ⟨ran, balanced, prompt⟩ := performs
  have whole := run_append_eq_some.2 ⟨m, trace, _, history, ran, rfl⟩
  exact ⟨_, rfl, balanced, (new.contract kept whole).2 trace operation _ outcome [] rfl balanced⟩

end Machine

namespace NativeProcedure

inductive Call (p : NativeProcedure) (arguments : Value) (session : Option Session) (m : Machine) :
    List Move → Machine → Trace → Except BindingError Value → Prop where
  | refused {e : BindingError} (unfit : p.operation arguments session = .error e) :
      Call p arguments session m [] m [] (.error e)
  | performed {operation : Operation} {moves : List Move} {n : Machine} {trace : Trace}
      {outcome : Outcome} {value : Except BindingError Value}
      (fits : p.operation arguments session = .ok operation)
      (performs : m.Performs operation moves n trace outcome)
      (returns : valueOf? outcome = some value) :
      Call p arguments session m moves n trace value

variable {p : NativeProcedure} {arguments : Value} {session : Option Session} {m n : Machine}
  {moves : List Move} {trace : Trace} {value : Except BindingError Value}

theorem call_iff_of_error {e : BindingError} (unfit : p.operation arguments session = .error e) :
    p.Call arguments session m moves n trace value ↔
      moves = [] ∧ n = m ∧ trace = [] ∧ value = .error e := by
  constructor
  · rintro (unfit' | ⟨fits, -, -⟩)
    · cases unfit.symm.trans unfit'
      exact ⟨rfl, rfl, rfl, rfl⟩
    · cases unfit.symm.trans fits
  · rintro ⟨rfl, rfl, rfl, rfl⟩
    exact .refused unfit

theorem call_iff_of_ok {operation : Operation}
    (fits : p.operation arguments session = .ok operation) :
    p.Call arguments session m moves n trace value ↔
      ∃ outcome, m.Performs operation moves n trace outcome ∧ valueOf? outcome = some value := by
  constructor
  · rintro (unfit | ⟨fits', performs, returns⟩)
    · cases fits.symm.trans unfit
    · cases fits.symm.trans fits'
      exact ⟨_, performs, returns⟩
  · rintro ⟨outcome, performs, returns⟩
    exact .performed fits performs returns

end NativeProcedure

end ScriptEvents
