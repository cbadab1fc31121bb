import ScriptEvents.Proofs.Procedures.Call
/-!
Attendance: collaborators that answer at once and call nobody. With them an operation goes one way
only, from its call to its outcome, and that way is followed request by request.
-/
namespace ScriptEvents

structure Attendants where
  stop : CancelHandle → Except DirectiveError Unit
  evaluate : Value → Except EvalError Value
  handleError : Snapshot → EvalError → Except EvalError Value

namespace Attendants

def reply? (a : Attendants) : Request → Option Reply
  | .stop handle => some (.stopped (a.stop handle))
  | .evaluate expression => some (.evaluated (a.evaluate expression))
  | .handleError listener e => some (.errorHandled (a.handleError listener e))
  | _ => none

/-- Whatever is asked in the trace, they reply to at once. -/
def Answers (a : Attendants) (trace : Trace) : Prop :=
  ∀ before request after, trace = before ++ .asked request :: after →
    ∃ reply later, a.reply? request = some reply ∧ after = .replied reply :: later

variable {a : Attendants} {first later : Trace}

theorem Answers.append (h : a.Answers first) (h' : a.Answers later) :
    a.Answers (first ++ later) := by
  intro before request after split
  rcases Trace.split_append split with ⟨rest, hfirst, rfl⟩ | ⟨middle, -, hlater⟩
  · obtain ⟨reply, more, answered, rfl⟩ := h before request rest hfirst
    exact ⟨reply, more ++ later, answered, rfl⟩
  · exact h' middle request after hlater

theorem Answers.of_append (h : a.Answers (first ++ later)) : a.Answers later := by
  rintro before request after rfl
  exact h (first ++ before) request after (List.append_assoc ..).symm

theorem Answers.of_returned {outcome : Outcome} (h : a.Answers (first ++ [.returned outcome])) :
    a.Answers first := by
  rintro before request after rfl
  obtain ⟨reply, later, answered, split⟩ :=
    h before request (after ++ [.returned outcome]) (by simp)
  cases after with
  | nil => cases split
  | cons e after =>
    cases split
    exact ⟨reply, after, answered, rfl⟩

theorem Answers.of_unasked (unasked : ∀ request, .asked request ∉ first) : a.Answers first := by
  rintro before request after rfl
  simpa using unasked request

theorem Answers.pair {request : Request} {reply : Reply}
    (answered : a.reply? request = some reply) :
    a.Answers [.asked request, .replied reply] := by
  intro before request' after split
  match before with
  | [] =>
    cases split
    exact ⟨reply, [], answered, rfl⟩
  | [_] => cases split
  | _ :: _ :: before => simp at split

end Attendants

theorem Turn.asked_not_mem_body (t : Turn) (request : Request) : .asked request ∉ t.body := by
  simp [Turn.body]

theorem Turn.split_returned {t : Turn} {after passed : Trace} {outcome : Outcome}
    (h : t.effects ++ after = passed ++ [.returned outcome]) :
    ∃ rest : Trace, passed = t.body ++ rest ∧
      t.signal.effect :: after = rest ++ [.returned outcome] := by
  rw [t.effects_eq, List.append_assoc] at h
  rcases Trace.split_append h with ⟨rest, hbody, -⟩ | ⟨rest, hpassed, hrest⟩
  · have flat := t.body_flat (.returned outcome) (by simp [hbody])
    cases flat
  · exact ⟨rest, hpassed, hrest⟩

inductive Attends (a : Attendants) :
    Registry → Signal → List Reply → Registry → Trace → Outcome → Prop where
  | done {r : Registry} {outcome : Outcome} : Attends a r (.done outcome) [] r [] outcome
  | ask {r s : Registry} {request : Request} {waiting : Pending} {reply : Reply} {t : Turn}
      {replies : List Reply} {later : Trace} {outcome : Outcome}
      (answered : a.reply? request = some reply) (resumed : r.resume? waiting reply = some t)
      (rest : Attends a t.registry t.signal replies s later outcome) :
      Attends a r (.ask request waiting) (reply :: replies) s
        (.asked request :: .replied reply :: (t.body ++ later)) outcome

namespace Attends

variable {a : Attendants} {r s s' : Registry} {signal : Signal} {replies replies' : List Reply}
  {passed passed' : Trace} {outcome outcome' : Outcome}

theorem balanced (h : Attends a r signal replies s passed outcome) : passed.Balanced := by
  induction h with
  | done => rfl
  | @ask _ _ request _ reply t _ later _ _ _ _ ih =>
    have flat : Trace.Flat [.asked request, .replied reply] := by simp [Trace.Flat, Effect.isFlat]
    exact flat.balanced.append (t.body_flat.balanced.append ih)

theorem answers (h : Attends a r signal replies s passed outcome) : a.Answers passed := by
  induction h with
  | done => exact .of_unasked fun _ => List.not_mem_nil
  | @ask _ _ _ _ _ t _ _ _ answered _ _ ih =>
    exact (Attendants.Answers.pair answered).append
      ((Attendants.Answers.of_unasked t.asked_not_mem_body).append ih)

theorem unique (h : Attends a r signal replies s passed outcome)
    (h' : Attends a r signal replies' s' passed' outcome') :
    replies' = replies ∧ s' = s ∧ passed' = passed ∧ outcome' = outcome := by
  induction h generalizing replies' passed' with
  | done =>
    cases h'
    exact ⟨rfl, rfl, rfl, rfl⟩
  | ask answered resumed _ ih =>
    obtain _ | ⟨answered', resumed', rest'⟩ := h'
    cases answered.symm.trans answered'
    cases resumed.symm.trans resumed'
    obtain ⟨rfl, rfl, rfl, rfl⟩ := ih rest'
    exact ⟨rfl, rfl, rfl, rfl⟩

theorem run (h : Attends a r signal replies s passed outcome) (others : List Pending) :
    ∃ later, signal.effect :: later = passed ++ [.returned outcome] ∧
      Machine.run { registry := r, pending := signal.pending ++ others } (replies.map .reply) =
        some ({ registry := s, pending := others }, later) := by
  induction h with
  | done => exact ⟨[], rfl, rfl⟩
  | @ask r s request waiting reply t replies later outcome _ resumed _ ih =>
    obtain ⟨after, hafter, hrun⟩ := ih
    refine ⟨.replied reply :: (t.effects ++ after), ?_, ?_⟩
    · have ended : t.effects ++ after = t.body ++ later ++ [.returned outcome] := by
        simpa [t.effects_eq] using hafter
      rw [ended]
      rfl
    · have hstep : Machine.step { registry := r, pending := waiting :: others } (.reply reply) =
          some ({ registry := t.registry, pending := t.signal.pending ++ others },
            .replied reply :: t.effects) := by
        simp only [Machine.step, resumed]
        rfl
      exact Machine.run_cons_eq_some.2 ⟨_, _, after, hstep, hrun, rfl⟩

end Attends

namespace Machine

variable {a : Attendants} {m n : Machine} {r : Registry} {signal : Signal} {operation : Operation}
  {replies : List Reply} {others : List Pending} {passed trace : Trace} {outcome : Outcome}

theorem attends_of_run {later : Trace}
    (history : run { registry := r, pending := signal.pending ++ others } (replies.map .reply) =
      some (n, later))
    (ends : signal.effect :: later = passed ++ [.returned outcome]) (balanced : passed.Balanced)
    (answers : a.Answers passed) :
    Attends a r signal replies n.registry passed outcome ∧ n.pending = others := by
  induction replies generalizing r signal passed later with
  | nil =>
    cases history
    cases passed with
    | nil =>
      rw [Signal.eq_done (List.cons.inj ends).1]
      exact ⟨.done, rfl⟩
    | cons e passed => simp at ends
  | cons reply replies ih =>
    obtain ⟨next, seen, later, hmove, hrest, rfl⟩ := run_cons_eq_some.1 history
    cases signal with
    | done given =>
      obtain ⟨_, rfl⟩ := replied_of_step hmove
      obtain ⟨-, -, hnil⟩ := Trace.returned_inj .nil balanced ends
      cases hnil
    | ask request waiting =>
      simp only [step, Signal.pending, List.singleton_append] at hmove
      obtain ⟨t, resumed, hfinish⟩ := Option.map_eq_some_iff.1 hmove
      cases hfinish
      cases passed with
      | nil => cases (List.cons.inj ends).1
      | cons e passed =>
        obtain ⟨rfl, hlater⟩ := List.cons.inj ends
        obtain ⟨reply', more, answered, rfl⟩ := answers [] request passed rfl
        obtain ⟨hreply, hmore⟩ := List.cons.inj hlater
        cases hreply
        obtain ⟨rest, rfl, hrest'⟩ := Turn.split_returned hmore
        have closed : rest.Balanced := by
          have h := Trace.closes_append t.body_flat.balanced 0 rest
          exact h.symm.trans balanced
        have answers : a.Answers rest := by
          have h : a.Answers ([.asked request, .replied reply] ++ (t.body ++ rest)) := answers
          exact h.of_append.of_append
        obtain ⟨attends, hpending⟩ := ih hrest hrest' closed answers
        exact ⟨.ask answered resumed attends, hpending⟩

theorem step_call (allowed : m.mayCall operation = true) : m.step (.call operation) =
    some ({ registry := (m.registry.start operation).registry
            pending := (m.registry.start operation).signal.pending ++ m.pending },
      .called operation :: (m.registry.start operation).effects) :=
  if_pos allowed

/-- An operation is performed with attendants just as its first turn and their replies have it. -/
theorem performs_iff_attends (allowed : m.mayCall operation = true) :
    m.Performs operation (.call operation :: replies.map .reply) n trace outcome ∧
        a.Answers trace ↔
      ∃ passed, Attends a (m.registry.start operation).registry
          (m.registry.start operation).signal replies n.registry passed outcome ∧
        n.pending = m.pending ∧
        trace = .called operation ::
          ((m.registry.start operation).body ++ passed ++ [.returned outcome]) := by
  constructor
  · rintro ⟨@⟨_, _, passed, _, ran, balanced, -⟩, answers⟩
    obtain ⟨_, _, later, hcall, hrest, htrace⟩ := run_cons_eq_some.1 ran
    cases (step_call allowed).symm.trans hcall
    obtain ⟨rest, rfl, hrest'⟩ := Turn.split_returned (List.cons.inj htrace).2.symm
    have closed : rest.Balanced :=
      (Trace.closes_append (Turn.body_flat _).balanced 0 rest).symm.trans balanced
    have answers : a.Answers rest := by
      have h : a.Answers ([.called operation] ++ ((m.registry.start operation).body ++
        (rest ++ [.returned outcome]))) := by simpa using answers
      exact h.of_append.of_append.of_returned
    obtain ⟨attends, hpending⟩ := attends_of_run hrest hrest' closed answers
    exact ⟨rest, attends, hpending, rfl⟩
  · rintro ⟨passed, attends, hpending, rfl⟩
    obtain ⟨later, hlater, hrun⟩ := attends.run m.pending
    have ended : (m.registry.start operation).effects ++ later =
        (m.registry.start operation).body ++ passed ++ [.returned outcome] := by
      simpa [Turn.effects_eq] using hlater
    have left : n = { registry := n.registry, pending := m.pending } := by
      rw [← hpending]
    refine ⟨.intro ?_ ((Turn.body_flat _).balanced.append attends.balanced) ?_, ?_⟩
    · rw [← ended, left]
      exact run_cons_eq_some.2 ⟨_, _, later, step_call allowed, hrun, rfl⟩
    · intro earlier change h
      have edits : Move.edit change ∈ replies.map Move.reply := by simp [h]
      simp at edits
    · have called : a.Answers [.called operation] := .of_unasked (by simp)
      have body := Attendants.Answers.of_unasked (a := a)
        (m.registry.start operation).asked_not_mem_body
      have returned : a.Answers [.returned outcome] := .of_unasked (by simp)
      exact called.append ((body.append attends.answers).append returned)

theorem performs_iff_of_attends {r' : Registry} {replies' : List Reply} {outcome' : Outcome}
    (allowed : m.mayCall operation = true)
    (attends : Attends a (m.registry.start operation).registry
      (m.registry.start operation).signal replies r' passed outcome) :
    m.Performs operation (.call operation :: replies'.map .reply) n trace outcome' ∧
        a.Answers trace ↔
      replies' = replies ∧ n = { registry := r', pending := m.pending } ∧
        trace = .called operation ::
          ((m.registry.start operation).body ++ passed ++ [.returned outcome]) ∧
        outcome' = outcome := by
  rw [performs_iff_attends allowed]
  constructor
  · rintro ⟨passed', attends', hpending, rfl⟩
    obtain ⟨rfl, hregistry, rfl, rfl⟩ := attends.unique attends'
    refine ⟨rfl, ?_, rfl, rfl⟩
    rw [← hpending, ← hregistry]
  · rintro ⟨rfl, rfl, rfl, rfl⟩
    exact ⟨passed, attends, rfl, rfl⟩

end Machine

end ScriptEvents
