import ScriptEvents.Proofs.Lifecycle.Departure
import ScriptEvents.Proofs.Procedures.Call
import ScriptEvents.Proofs.Registry.Identity
import ScriptEvents.Proofs.Text.Numerals
/-!
The cancelling procedure: the symbol of a registration names that registration's listener, whatever
id it was given, and the symbol of an ignored one names none.
-/
namespace ScriptEvents

namespace Registry

variable {r : Registry} {t : Turn} {id : ListenerId}

theorem isSome_roll (r : Registry) (id : ListenerId) : (r.roll id).isSome = r.contains id := by
  simp [roll, contains, Roster.contains]

theorem Course.cancel_cases (course : Course r (.call (.cancel id)) t) :
    (∃ l, r.listeners.find? id = some l ∧ t = (r.remove id).publish [.removed id .cancelled]
      (stop l .cancelling (.done (.cancelled true)))) ∨
    r.listeners.find? id = none ∧ t = r.publish [] (.done (.cancelled false)) := by
  have unproposed (p : Proposal) : ¬ Cause.Proposes (.call (.cancel id)) p := by
    rintro (_ | _)
    contradiction
  cases course with
  | cancel found => exact .inl ⟨_, found, rfl⟩
  | finish outcome ends =>
    cases ends with
    | cancelledNone gone => exact .inr ⟨gone, rfl⟩
    | unresolved _ proposed | unknown proposed | uncallable proposed =>
      exact absurd proposed (unproposed _)
  | tearDown _ _ reached => cases reached
  | resolve _ _ proposed | allocate _ _ _ proposed | ignore _ proposed | refuse _ proposed
  | store _ _ _ proposed => exact absurd proposed (unproposed _)

theorem Course.cancelling_cases {reply : Reply} (course : Course r (.reply .cancelling reply) t) :
    ∃ result, reply = .stopped result ∧ t = r.publish [] (.done (.cancelled true)) := by
  cases course with
  | finish outcome ends =>
    cases ends with
    | cancelled result => exact ⟨result, rfl, rfl⟩
    | unresolved _ proposed | unknown proposed | uncallable proposed => cases proposed
  | tearDown _ _ reached => cases reached
  | resolve _ _ proposed | allocate _ _ _ proposed | ignore _ proposed | refuse _ proposed
  | store _ _ _ proposed => cases proposed

end Registry

namespace Contract

inductive Cancels (id : ListenerId) : Bool → Trace → Prop where
  | gone : Cancels id false []
  | bare : Cancels id true [.published (.removed id .cancelled)]
  | stopped (handle : CancelHandle) (result : Except DirectiveError Unit) :
      Cancels id true [.published (.removed id .cancelled), .asked (.stop handle),
        .replied (.stopped result)]

/-- A cancellation waits for the handle of its listener alone, and tells whether the listener was
there when it was called. -/
def cancelling : Contract where
  Waits before operation passed waiting := ∀ id, operation = .cancel id →
    waiting = .cancelling ∧ (Roll.replay before.log id).isSome = true ∧
      ∃ handle, passed.own = [.published (.removed id .cancelled), .asked (.stop handle)]
  Ends before operation passed outcome := ∀ id, operation = .cancel id →
    ∃ found, found = (Roll.replay before.log id).isSome ∧ outcome = .cancelled found ∧
      Cancels id found passed.own

end Contract

namespace Machine

variable {start m n : Machine} {earlier moves : List Move} {before trace passed : Trace}
  {id : ListenerId} {outcome : Outcome} {l : Listener}

theorem IsNew.isSome_replay (new : start.IsNew) (history : start.run earlier = some (m, before))
    (id : ListenerId) : (Roll.replay before.log id).isSome = m.registry.contains id := by
  rw [new.replay_log history, Registry.isSome_roll]

theorem IsNew.cancelling_kept (new : start.IsNew) : Contract.cancelling.Kept start where
  calls {_ m before operation t} history _ course := by
    cases operation with
    | cancel id =>
      have stored := new.isSome_replay history id
      rcases course.cancel_cases with ⟨l, found, rfl⟩ | ⟨gone, rfl⟩
      · have present : m.registry.contains id = true :=
          Option.isSome_iff_exists.2 ⟨l, found⟩
        rcases Registry.stop_cases l .cancelling (.done (.cancelled true)) with
          ⟨handle, -, hstop⟩ | ⟨-, hstop⟩
        · simp only [Registry.publish, hstop]
          rintro _ ⟨⟩
          exact ⟨rfl, stored.trans present, handle, rfl⟩
        · simp only [Registry.publish, hstop]
          rintro _ ⟨⟩
          exact ⟨true, (stored.trans present).symm, rfl, .bare⟩
      · rintro _ ⟨⟩
        exact ⟨false, (stored.trans (Registry.contains_eq_false_iff.2 gone)).symm, rfl, .gone⟩
    | _ => cases t.signal <;> (intro id h; cases h)
  replies {_ m before passed operation waiting others reply t} _ _ balanced waits course := by
    cases operation with
    | cancel id =>
      obtain ⟨rfl, stored, handle, hown⟩ := waits id rfl
      obtain ⟨result, rfl, rfl⟩ := course.cancelling_cases
      rintro _ ⟨⟩
      refine ⟨true, stored.symm, rfl, ?_⟩
      have flat : Trace.Flat [.replied (.stopped result)] := .singleton rfl
      change Contract.Cancels id true (Trace.own (passed ++ [.replied (.stopped result)]))
      rw [Trace.own_append_flat balanced flat, hown]
      exact .stopped handle result
    | _ => cases t.signal <;> (intro id h; cases h)
  nests hpassed hinner waits _ := by
    intro id h
    rw [Trace.own_append_whole hpassed hinner]
    exact waits id h

theorem step_cancel_of_find? (found : m.registry.listeners.find? id = some l) :
    m.step (.call (.cancel id)) =
      some ({ registry := (m.registry.remove id).record (.removed id .cancelled)
              pending := (l.handle.map fun _ => Pending.cancelling).toList ++ m.pending },
        [.called (.cancel id), .published (.removed id .cancelled),
          l.handle.elim (.returned (.cancelled true)) fun handle => .asked (.stop handle)]) := by
  have turned : m.registry.start (.cancel id) =
      (m.registry.remove id).publish [.removed id .cancelled]
        (Registry.stop l .cancelling (.done (.cancelled true))) := by
    simp only [Registry.start, Registry.cancel, found]
  simp only [step, mayCall, turned, if_true]
  cases hhandle : l.handle <;> simp only [Registry.stop, hhandle] <;> rfl

theorem step_stopped_of_cancelling {others : List Pending}
    (waits : m.pending = .cancelling :: others) (result : Except DirectiveError Unit) :
    m.step (.reply (.stopped result)) = some ({ m with pending := others },
      [.replied (.stopped result), .returned (.cancelled true)]) := by
  simp only [step, waits]
  rfl

structure CancelsOnly (m : Machine) (id : ListenerId) : Prop where
  absent : m.registry.contains id = false →
    ∀ (moves : List Move) (n : Machine) (trace : Trace) (outcome : Outcome),
      m.Performs (.cancel id) moves n trace outcome ↔ moves = [.call (.cancel id)] ∧ n = m ∧
        trace = [.called (.cancel id), .returned (.cancelled false)] ∧ outcome = .cancelled false
  present (l : Listener) : m.registry.listeners.find? id = some l → ∃ n : Machine,
    m.step (.call (.cancel id)) = some (n, [.called (.cancel id),
      .published (.removed id .cancelled),
      l.handle.elim (.returned (.cancelled true)) fun handle => .asked (.stop handle)]) ∧
    n.pending = (l.handle.map fun _ => Pending.cancelling).toList ++ m.pending ∧
    ∀ other, n.registry.listeners.find? other =
      if id = other then none else m.registry.listeners.find? other
  ends (k : Machine) (others : List Pending) (result : Except DirectiveError Unit) :
    k.pending = .cancelling :: others → k.step (.reply (.stopped result)) =
      some ({ k with pending := others },
        [.replied (.stopped result), .returned (.cancelled true)])
  own (moves : List Move) (n : Machine) (passed : Trace) (outcome : Outcome) :
    m.Performs (.cancel id) moves n (.called (.cancel id) :: (passed ++ [.returned outcome]))
      outcome → passed.Balanced ∧ Contract.Cancels id (m.registry.contains id) passed.own
  found (moves : List Move) (n : Machine) (trace : Trace) (outcome : Outcome) :
    m.Performs (.cancel id) moves n trace outcome →
      outcome = .cancelled (m.registry.contains id)

theorem IsNew.cancelsOnly (new : start.IsNew) (history : start.run earlier = some (m, before))
    (id : ListenerId) : m.CancelsOnly id := by
  have stored := new.isSome_replay history id
  constructor
  case absent =>
    intro gone moves n trace outcome
    have called := step_cancel_of_absent (Registry.contains_eq_false_iff.1 gone)
    exact performs_iff_of_step .nil called
  case present =>
    intro l found
    refine ⟨_, step_cancel_of_find? found, rfl, fun other => ?_⟩
    rw [Registry.record_listeners, Registry.remove_listeners, Roster.find?_erase]
  case ends => exact fun k others result waits => step_stopped_of_cancelling waits result
  case own =>
    intro moves n passed outcome performs
    obtain ⟨_, hpassed, balanced, ends⟩ :=
      new.ends_of_performs new.cancelling_kept history performs
    obtain ⟨rfl, -⟩ := List.append_inj' (List.cons.inj hpassed).2 rfl
    obtain ⟨_, rfl, -, cancels⟩ := ends id rfl
    exact ⟨balanced, stored ▸ cancels⟩
  case found =>
    intro moves n trace outcome performs
    obtain ⟨_, -, -, ends⟩ := new.ends_of_performs new.cancelling_kept history performs
    obtain ⟨_, rfl, rfl, -⟩ := ends id rfl
    rw [stored]

end Machine

namespace NativeProcedure

variable {start m : Machine} {earlier : List Move} {before : Trace} {id : ListenerId}
  {session : Option Session}

theorem listenerId?_symbolOf (id : ListenerId) : listenerId? (symbolOf id) = .ok id := by
  simp only [listenerId?, symbolOf, Text.readInt64?_integer]

theorem operation_cancel {v : Value} (reads : listenerId? v = .ok id) (session : Option Session) :
    cancel.operation (.ofList [v]) session = .ok (.cancel id) := by
  simp only [operation, Value.toList?_ofList, Option.getD_some, reads]
  rfl

theorem operation_cancel_of_error {v : Value} {e : BindingError} (unread : listenerId? v = .error e)
    (session : Option Session) : cancel.operation (.ofList [v]) session = .error e := by
  simp only [operation, Value.toList?_ofList, Option.getD_some, unread]
  rfl

/-- Calls of the cancelling procedure with one argument, the symbol, on a machine. -/
structure Names (m : Machine) (symbol : Value) (id : ListenerId) : Prop where
  same (session : Option Session) (moves : List Move) (n : Machine) (trace : Trace)
      (value : Except BindingError Value) :
    cancel.Call (.ofList [symbol]) session m moves n trace value ↔
      m.Performs (.cancel id) moves n trace (.cancelled (m.registry.contains id)) ∧
        value = .ok (.boolean (m.registry.contains id))
  only : m.CancelsOnly id

theorem names_of_reads {v : Value} (reads : listenerId? v = .ok id) (cancels : m.CancelsOnly id) :
    Names m v id := by
  refine ⟨fun session moves n trace value => ?_, cancels⟩
  rw [call_iff_of_ok (operation_cancel reads session)]
  constructor
  · rintro ⟨outcome, performs, returns⟩
    cases cancels.found _ _ _ _ performs
    exact ⟨performs, (Option.some.inj returns).symm⟩
  · rintro ⟨performs, rfl⟩
    exact ⟨_, performs, rfl⟩

theorem names_symbolOf (cancels : m.CancelsOnly id) : Names m (symbolOf id) id :=
  names_of_reads (listenerId?_symbolOf id) cancels

theorem symbol_of_call {p : NativeProcedure} {arguments symbol : Value} {m n : Machine}
    {moves : List Move} {passed : Trace} {registration : Registration}
    (called : p.Call arguments session m moves n
      (passed ++ [.returned (.registered (.ok registration))]) (.ok symbol)) :
    symbol = symbolOf registration.id := by
  generalize whole : passed ++ [.returned (.registered (.ok registration))] = trace at called
  obtain _ | ⟨-, performs, returns⟩ := called
  obtain ⟨-, -, -⟩ := performs
  rw [← List.cons_append] at whole
  obtain ⟨-, hreturned⟩ := List.append_inj' whole rfl
  cases hreturned
  exact (Except.ok.inj (Option.some.inj returns)).symm

/-- The registration may have been made on any machine, and the symbol be used on any other. -/
theorem symbol_names_registration (new : start.IsNew)
    (history : start.run earlier = some (m, before)) {p : NativeProcedure}
    {arguments symbol : Value} {registered left : Machine} {moves : List Move} {passed : Trace}
    {registration : Registration}
    (called : p.Call arguments session registered moves left
      (passed ++ [.returned (.registered (.ok registration))]) (.ok symbol)) :
    Names m symbol registration.id ∧ ∀ name, registration = .ignored name →
      ∀ (session : Option Session) (moves : List Move) (n : Machine) (trace : Trace)
        (value : Except BindingError Value),
        cancel.Call (.ofList [symbol]) session m moves n trace value ↔
          moves = [.call (.cancel .invalid)] ∧ n = m ∧
            trace = [.called (.cancel .invalid), .returned (.cancelled false)] ∧
            value = .ok (.boolean false) := by
  have names : Names m symbol registration.id :=
    symbol_of_call called ▸ names_symbolOf (new.cancelsOnly history registration.id)
  refine ⟨names, ?_⟩
  rintro name rfl session moves n trace value
  have unlisted : m.registry.contains .invalid = false := by
    rw [← Bool.not_eq_true]
    exact fun stored =>
      new.invalid_not_mem_registrations history (new.mem_registrations history stored)
  rw [names.same]
  change m.Performs (.cancel .invalid) moves n trace (.cancelled (m.registry.contains .invalid)) ∧
    value = .ok (.boolean (m.registry.contains .invalid)) ↔ _
  rw [unlisted, (new.cancelsOnly history .invalid).absent unlisted]
  simp only [and_true, and_assoc]

def fromLeast : Machine :=
  { registry := { resolver := .external, ids := .sequential Int64.minValue } }

def leastRegistered : List Move :=
  [.call (.register (.ofList [.symbol "tick"]) none false),
    .reply (.resolved (.ok (some (.directive ⟨0⟩)))), .reply (.setUp (.ok true))]

def leastPassed : Trace :=
  [.called (.register (.ofList [.symbol "tick"]) none false),
    .asked (.resolve (.symbol "tick")),
    .replied (.resolved (.ok (some (.directive ⟨0⟩)))),
    .received (.id none Int64.minValue),
    .published (.registered Int64.minValue "tick" false),
    .asked (.invoke ⟨0⟩ .nil Int64.minValue),
    .replied (.setUp (.ok true)),
    .received (.handle Int64.minValue ⟨0⟩)]

def leastRegistration : Registration :=
  .active { id := Int64.minValue, name := "tick", options := .nil, callback := none, once := false,
            cancellable := true }

theorem symbol_names_registration_least : fromLeast.IsNew ∧
    ∃ m : Machine, fromLeast.run leastRegistered =
        some (m, leastPassed ++ [.returned (.registered (.ok leastRegistration))]) ∧
      on.Call (.ofList [.symbol "tick"]) none fromLeast leastRegistered m
        (leastPassed ++ [.returned (.registered (.ok leastRegistration))])
        (.ok (.symbol "-9223372036854775808")) ∧
      m.registry.contains Int64.minValue = true ∧
      Names m (.symbol "-9223372036854775808") Int64.minValue := by
  have new : fromLeast.IsNew := ⟨rfl, rfl, rfl, rfl⟩
  obtain ⟨m, history, stored⟩ : ∃ m : Machine, fromLeast.run leastRegistered =
      some (m, leastPassed ++ [.returned (.registered (.ok leastRegistration))]) ∧
      m.registry.contains Int64.minValue = true := ⟨_, rfl, rfl⟩
  have balanced : Trace.Balanced leastPassed.tail := by rfl
  have prompt : ∀ earlier change, leastRegistered.tail ≠ earlier ++ [.edit change] := by
    intro earlier change h
    have last := congrArg List.getLast? h
    rw [List.getLast?_concat] at last
    cases last
  have called : on.Call (.ofList [.symbol "tick"]) none fromLeast leastRegistered m
      (leastPassed ++ [.returned (.registered (.ok leastRegistration))])
      (.ok (.symbol "-9223372036854775808")) :=
    .performed rfl (.intro history balanced prompt) rfl
  exact ⟨new, m, history, called, stored, (symbol_names_registration new history called).1⟩

end NativeProcedure

end ScriptEvents
