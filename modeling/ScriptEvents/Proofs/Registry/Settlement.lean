import ScriptEvents.Proofs.HostValue.Coercion
import ScriptEvents.Proofs.Procedures.Attendance
/-!
Settlement: how a dispatch ends where no dispatch handler is installed and nobody calls the registry
meanwhile. Who is removed depends on the listener and the final flag alone; what is returned, on the
payload, the callback, and what the evaluator and the error handler reply.
-/
namespace ScriptEvents

def Effect.evaluation? : Effect → Option Value
  | asked (.evaluate expression) => some expression
  | _ => none

def Trace.evaluations (trace : Trace) : List Value := trace.filterMap Effect.evaluation?

@[simp] theorem Trace.evaluations_append (a b : Trace) :
    evaluations (a ++ b) = evaluations a ++ evaluations b :=
  List.filterMap_append

theorem Trace.evaluations_call (operation : Operation) (inside : Trace) (outcome : Outcome) :
    evaluations (.called operation :: (inside ++ [.returned outcome])) = inside.evaluations := by
  rw [evaluations, List.filterMap_cons_none rfl, List.filterMap_append]
  exact List.append_nil _

theorem Trace.log_call (operation : Operation) (inside : Trace) (outcome : Outcome) :
    log (.called operation :: (inside ++ [.returned outcome])) = inside.log := by
  rw [log, List.filterMap_cons_none rfl, List.filterMap_append]
  exact List.append_nil _

theorem HostValue.exists_coerce_of_coerceArguments {payload : HostValue} {quote : Bool}
    {arguments : List Value} (coerced : payload.coerceArguments quote = .ok arguments) :
    ∃ value, payload.coerce = .ok value := by
  cases h : payload.coerce with
  | ok value => exact ⟨value, rfl⟩
  | error e => cases (coerceArguments_eq_error_iff.2 h).symm.trans coerced

namespace Registry

/-- What the evaluator is to evaluate when the payload is delivered: nothing if that cannot be
coerced, or if there is no callback. -/
def expression? (r : Registry) (listener : Snapshot) (payload : HostValue) : Option Value :=
  match payload.coerceArguments r.config.quoteArguments, listener.callback with
  | .ok arguments, some callback => some (.pair (.procedure callback) (.ofList arguments))
  | _, _ => none

variable {r : Registry} {listener : Snapshot} {payload : HostValue} {expression : Value}

theorem expression?_eq_none_of_error {e : CoercionError} (refused : payload.coerce = .error e) :
    r.expression? listener payload = none := by
  simp [expression?, HostValue.coerceArguments, refused]

theorem expression?_eq_none_of_bare (bare : listener.callback = none) :
    r.expression? listener payload = none := by
  unfold expression?
  split <;> simp_all

theorem callable_of_expression? (called : r.expression? listener payload = some expression) :
    (∃ value, payload.coerce = .ok value) ∧ listener.callback ≠ none := by
  constructor
  · cases h : payload.coerce with
    | ok value => exact ⟨value, rfl⟩
    | error e => cases (expression?_eq_none_of_error h).symm.trans called
  · intro bare
    cases (expression?_eq_none_of_bare bare).symm.trans called

theorem expression?_congr {s : Registry} (config : s.config = r.config) :
    s.expression? listener payload = r.expression? listener payload := by
  simp only [expression?, config]

theorem delivery_of_called (called : r.expression? listener payload = some expression) :
    r.delivery listener payload = .ask (.evaluate expression) (.evaluating listener) := by
  unfold expression? at called
  split at called
  next arguments callback coerced hcallback =>
    cases called
    simp only [delivery, coerced, hcallback]
  next => cases called

end Registry

namespace Attendants

def failure? (a : Attendants) (r : Registry) (listener : Snapshot) (payload : HostValue) :
    Option EvalError :=
  (r.expression? listener payload).bind fun expression =>
    match a.evaluate expression with
    | .ok _ => none
    | .error e => some e

inductive Delivers (a : Attendants) (r : Registry) (listener : Snapshot) (payload : HostValue) :
    List Reply → Registry → Trace → Except ListenerError (Option Value) → Prop where
  | uncoerced {e : CoercionError} (refused : payload.coerce = .error e) :
      Delivers a r listener payload [] r [] (.error (.coercion e))
  | silent {value : Value} (coerced : payload.coerce = .ok value)
      (bare : listener.callback = none) : Delivers a r listener payload [] r [] (.ok none)
  | returned {expression value : Value} (called : r.expression? listener payload = some expression)
      (returns : a.evaluate expression = .ok value) :
      Delivers a r listener payload [.evaluated (.ok value)] r
        [.asked (.evaluate expression), .replied (.evaluated (.ok value))] (.ok (some value))
  | unhandled {expression : Value} {e : EvalError}
      (called : r.expression? listener payload = some expression)
      (fails : a.evaluate expression = .error e) (alone : r.hasErrorHandler = false) :
      Delivers a r listener payload [.evaluated (.error e)]
        (r.record (.callbackFailed listener.id e.message))
        [.asked (.evaluate expression), .replied (.evaluated (.error e)),
          .published (.callbackFailed listener.id e.message)]
        (.error (.evaluation listener.id e))
  | recovered {expression value : Value} {e : EvalError}
      (called : r.expression? listener payload = some expression)
      (fails : a.evaluate expression = .error e) (handled : r.hasErrorHandler = true)
      (recovers : a.handleError listener e = .ok value) :
      Delivers a r listener payload [.evaluated (.error e), .errorHandled (.ok value)]
        (r.record (.callbackFailed listener.id e.message))
        [.asked (.evaluate expression), .replied (.evaluated (.error e)),
          .published (.callbackFailed listener.id e.message), .asked (.handleError listener e),
          .replied (.errorHandled (.ok value))] (.ok (some value))
  | unrecovered {expression : Value} {e source : EvalError}
      (called : r.expression? listener payload = some expression)
      (fails : a.evaluate expression = .error e) (handled : r.hasErrorHandler = true)
      (failsToo : a.handleError listener e = .error source) :
      Delivers a r listener payload [.evaluated (.error e), .errorHandled (.error source)]
        (r.record (.callbackFailed listener.id e.message))
        [.asked (.evaluate expression), .replied (.evaluated (.error e)),
          .published (.callbackFailed listener.id e.message), .asked (.handleError listener e),
          .replied (.errorHandled (.error source))] (.error (.evaluation listener.id source))

variable {a : Attendants} {r s : Registry} {listener : Snapshot} {payload : HostValue}
  {replies : List Reply} {passed : Trace} {result : Except ListenerError (Option Value)}

theorem reply?_evaluate {expression : Value} {value : Except EvalError Value}
    (evaluates : a.evaluate expression = value) :
    a.reply? (.evaluate expression) = some (.evaluated value) := by
  rw [← evaluates, reply?]

theorem recovering (a : Attendants) (r : Registry) (listener : Snapshot) (e : EvalError) :
    Attends a r (.ask (.handleError listener e) (.recovering listener.id))
      [.errorHandled (a.handleError listener e)] r
      [.asked (.handleError listener e), .replied (.errorHandled (a.handleError listener e))]
      (.delivered (match a.handleError listener e with
        | .ok value => .ok (some value)
        | .error source => .error (.evaluation listener.id source))) := by
  have answered : a.reply? (.handleError listener e) =
    some (.errorHandled (a.handleError listener e)) := rfl
  cases recovers : a.handleError listener e with
  | ok value =>
    rw [recovers] at answered
    have resumed : r.resume? (.recovering listener.id) (.errorHandled (.ok value)) =
      some (r.publish [] (.done (.delivered (.ok (some value))))) := rfl
    exact Attends.ask answered resumed .done
  | error source =>
    rw [recovers] at answered
    have resumed : r.resume? (.recovering listener.id) (.errorHandled (.error source)) =
      some (r.publish [] (.done (.delivered (.error (.evaluation listener.id source))))) := rfl
    exact Attends.ask answered resumed .done

theorem delivers_of_called {expression : Value}
    (called : r.expression? listener payload = some expression) :
    ∃ replies s passed result, a.Delivers r listener payload replies s passed result ∧
      Attends a r (.ask (.evaluate expression) (.evaluating listener)) replies s passed
        (.delivered result) := by
  cases evaluates : a.evaluate expression with
  | ok value =>
    have resumed : r.resume? (.evaluating listener) (.evaluated (.ok value)) =
      some (r.publish [] (.done (.delivered (.ok (some value))))) := rfl
    have attends := Attends.ask (reply?_evaluate evaluates) resumed .done
    exact ⟨_, _, _, _, .returned called evaluates, attends⟩
  | error e =>
    have resumed : r.resume? (.evaluating listener) (.evaluated (.error e)) =
      some (r.evaluated listener (.error e)) := rfl
    cases handler : r.hasErrorHandler with
    | false =>
      rw [Registry.evaluated, if_neg (by simp [handler])] at resumed
      have attends := Attends.ask (reply?_evaluate evaluates) resumed .done
      exact ⟨_, _, _, _, .unhandled called evaluates handler, attends⟩
    | true =>
      rw [Registry.evaluated, if_pos handler] at resumed
      have recovering := a.recovering (r.record (.callbackFailed listener.id e.message)) listener e
      have attends := Attends.ask (reply?_evaluate evaluates) resumed recovering
      cases recovers : a.handleError listener e with
      | ok value =>
        rw [recovers] at attends
        exact ⟨_, _, _, _, .recovered called evaluates handler recovers, attends⟩
      | error source =>
        rw [recovers] at attends
        exact ⟨_, _, _, _, .unrecovered called evaluates handler recovers, attends⟩

/-- Every delivery goes one of these ways. -/
theorem delivers (a : Attendants) (r : Registry) (listener : Snapshot) (payload : HostValue) :
    ∃ replies s passed result, a.Delivers r listener payload replies s passed result ∧
      Attends a r (r.delivery listener payload) replies s passed (.delivered result) := by
  cases coerced : payload.coerceArguments r.config.quoteArguments with
  | error e =>
    have refused := HostValue.coerceArguments_eq_error_iff.1 coerced
    have ends : r.delivery listener payload = .done (.delivered (.error (.coercion e))) := by
      simp only [Registry.delivery, coerced]
    exact ⟨[], r, [], _, .uncoerced refused, ends ▸ .done⟩
  | ok arguments =>
    cases callback : listener.callback with
    | none =>
      obtain ⟨value, hvalue⟩ := HostValue.exists_coerce_of_coerceArguments coerced
      have ends : r.delivery listener payload = .done (.delivered (.ok none)) := by
        simp only [Registry.delivery, coerced, callback]
      exact ⟨[], r, [], _, .silent hvalue callback, ends ▸ .done⟩
    | some procedure =>
      have called : r.expression? listener payload =
          some (.pair (.procedure procedure) (.ofList arguments)) := by
        simp only [Registry.expression?, coerced, callback]
      rw [Registry.delivery_of_called called]
      exact delivers_of_called called

theorem failure?_eq_none_of_uncalled (uncalled : r.expression? listener payload = none) :
    a.failure? r listener payload = none := by
  simp [failure?, uncalled]

theorem failure?_eq_none_of_returned {expression value : Value}
    (called : r.expression? listener payload = some expression)
    (returns : a.evaluate expression = .ok value) : a.failure? r listener payload = none := by
  simp [failure?, called, returns]

theorem failure?_eq_some {expression : Value} {e : EvalError}
    (called : r.expression? listener payload = some expression)
    (fails : a.evaluate expression = .error e) : a.failure? r listener payload = some e := by
  simp [failure?, called, fails]

theorem Delivers.evaluations_eq (h : a.Delivers r listener payload replies s passed result) :
    passed.evaluations = (r.expression? listener payload).toList := by
  cases h with
  | uncoerced refused =>
    rw [Registry.expression?_eq_none_of_error refused]
    rfl
  | silent _ bare =>
    rw [Registry.expression?_eq_none_of_bare bare]
    rfl
  | returned called | unhandled called | recovered called | unrecovered called =>
    rw [called]
    rfl

theorem Delivers.log_eq (h : a.Delivers r listener payload replies s passed result) :
    passed.log = (a.failure? r listener payload).toList.map (fun e =>
      .callbackFailed listener.id e.message) ∧
    s = (a.failure? r listener payload).elim r fun e =>
      r.record (.callbackFailed listener.id e.message) := by
  cases h with
  | uncoerced refused =>
    rw [failure?_eq_none_of_uncalled (Registry.expression?_eq_none_of_error refused)]
    exact ⟨rfl, rfl⟩
  | silent _ bare =>
    rw [failure?_eq_none_of_uncalled (Registry.expression?_eq_none_of_bare bare)]
    exact ⟨rfl, rfl⟩
  | returned called returns =>
    rw [failure?_eq_none_of_returned called returns]
    exact ⟨rfl, rfl⟩
  | unhandled called fails | recovered called fails | unrecovered called fails =>
    rw [failure?_eq_some called fails]
    exact ⟨rfl, rfl⟩

theorem Delivers.kept (h : a.Delivers r listener payload replies s passed result) :
    s.listeners = r.listeners ∧ s.stats.callbackErrors = r.stats.callbackErrors +
      if (a.failure? r listener payload).isSome = true then 1 else 0 := by
  rw [h.log_eq.2]
  cases a.failure? r listener payload with
  | none => exact ⟨rfl, (UInt64.add_zero _).symm⟩
  | some e => exact ⟨rfl, rfl⟩

structure Resolves (a : Attendants) (r : Registry) (listener : Snapshot) (payload : HostValue)
    (result : Except ListenerError (Option Value)) : Prop where
  uncoerced (e : CoercionError) : result = .error (.coercion e) ↔ payload.coerce = .error e
  silent : result = .ok none ↔
    (∃ value, payload.coerce = .ok value) ∧ listener.callback = none
  returned (value : Value) : result = .ok (some value) ↔
    ∃ expression, r.expression? listener payload = some expression ∧
      (a.evaluate expression = .ok value ∨ ∃ e, a.evaluate expression = .error e ∧
        r.hasErrorHandler = true ∧ a.handleError listener e = .ok value)
  failed (id : ListenerId) (source : EvalError) : result = .error (.evaluation id source) ↔
    id = listener.id ∧ ∃ expression e, r.expression? listener payload = some expression ∧
      a.evaluate expression = .error e ∧
        if r.hasErrorHandler = true then a.handleError listener e = .error source else source = e

theorem Delivers.resolves (h : a.Delivers r listener payload replies s passed result) :
    a.Resolves r listener payload result := by
  cases h with
  | uncoerced refused =>
    have uncalled : r.expression? listener payload = none :=
      Registry.expression?_eq_none_of_error refused
    constructor <;> simp [refused, uncalled]
  | silent coerced bare =>
    have uncalled : r.expression? listener payload = none :=
      Registry.expression?_eq_none_of_bare bare
    constructor <;> simp [coerced, bare, uncalled]
  | returned called returns =>
    obtain ⟨⟨_, coerced⟩, callback⟩ := Registry.callable_of_expression? called
    constructor <;> simp [called, coerced, callback, returns]
  | unhandled called fails alone =>
    obtain ⟨⟨_, coerced⟩, callback⟩ := Registry.callable_of_expression? called
    constructor <;> simp [called, coerced, callback, fails, alone, eq_comm]
  | recovered called fails handled recovers =>
    obtain ⟨⟨_, coerced⟩, callback⟩ := Registry.callable_of_expression? called
    constructor <;> simp [called, coerced, callback, fails, handled, recovers, eq_comm]
  | unrecovered called fails handled failsToo =>
    obtain ⟨⟨_, coerced⟩, callback⟩ := Registry.callable_of_expression? called
    constructor <;> simp [called, coerced, callback, fails, handled, failsToo, eq_comm]

theorem Resolves.congr (h : a.Resolves s listener payload result) (config : s.config = r.config)
    (handler : s.hasErrorHandler = r.hasErrorHandler) : a.Resolves r listener payload result := by
  have returned := h.returned
  have failed := h.failed
  rw [Registry.expression?_congr config, handler] at returned failed
  exact ⟨h.uncoerced, h.silent, returned, failed⟩

/-- The handle of a listener that has fired runs before its callback, and changes nothing. -/
theorem attends_stop {l : Listener} (a : Attendants) {outcome : Outcome}
    (attends : Attends a r (r.delivery listener payload) replies s passed outcome) :
    ∃ replies' stopping, Attends a r
        (Registry.stop l (.firing listener payload) (r.delivery listener payload)) replies' s
        (stopping ++ passed) outcome ∧
      Trace.log stopping = [] ∧ Trace.evaluations stopping = [] := by
  rcases Registry.stop_cases l (.firing listener payload) (r.delivery listener payload) with
    ⟨handle, -, hstop⟩ | ⟨-, hstop⟩
  · have answered : a.reply? (.stop handle) = some (.stopped (a.stop handle)) := rfl
    have resumed : r.resume? (.firing listener payload) (.stopped (a.stop handle)) =
      some (r.publish [] (r.delivery listener payload)) := rfl
    rw [hstop]
    exact ⟨_, [.asked (.stop handle), .replied (.stopped (a.stop handle))],
      .ask answered resumed attends, rfl, rfl⟩
  · rw [hstop]
    exact ⟨replies, [], attends, rfl, rfl⟩

structure Settles (a : Attendants) (r s : Registry) (l : Listener) (payload : HostValue)
    (isFinal : Bool) (trace : Trace) (result : Except ListenerError (Option Value)) : Prop where
  left : s.listeners =
    if l.once = true ∨ isFinal = true then r.listeners.erase l.id else r.listeners
  resolves : a.Resolves r l.snapshot payload result
  evaluations : trace.evaluations = (r.expression? l.snapshot payload).toList
  log : trace.log = .dispatched l.id isFinal ::
    ((if l.once = true ∨ isFinal = true then [.removed l.id .fired] else []) ++
      (a.failure? r l.snapshot payload).toList.map fun e => .callbackFailed l.id e.message)
  counted : s.stats.callbackErrors = r.stats.callbackErrors +
    if (a.failure? r l.snapshot payload).isSome = true then 1 else 0

theorem Delivers.settles {r' : Registry} {l : Listener} {isFinal : Bool} {opening : Trace}
    (h : a.Delivers r' l.snapshot payload replies s passed result) (config : r'.config = r.config)
    (handler : r'.hasErrorHandler = r.hasErrorHandler)
    (errors : r'.stats.callbackErrors = r.stats.callbackErrors)
    (left : r'.listeners =
      if l.once = true ∨ isFinal = true then r.listeners.erase l.id else r.listeners)
    (unevaluated : opening.evaluations = [])
    (log : opening.log = .dispatched l.id isFinal ::
      if l.once = true ∨ isFinal = true then [.removed l.id .fired] else []) :
    a.Settles r s l payload isFinal (opening ++ passed) result := by
  have called : r'.expression? l.snapshot payload = r.expression? l.snapshot payload :=
    Registry.expression?_congr config
  have failed : a.failure? r' l.snapshot payload = a.failure? r l.snapshot payload := by
    simp only [failure?, called]
  constructor
  case left => rw [h.kept.1, left]
  case resolves => exact h.resolves.congr config handler
  case evaluations =>
    rw [Trace.evaluations_append, unevaluated, h.evaluations_eq, called, List.nil_append]
  case log =>
    rw [Trace.log_append, log, h.log_eq.1, failed]
    rfl
  case counted => rw [h.kept.2, errors, failed]

end Attendants

namespace Registry

variable {r : Registry} {id : ListenerId} {l : Listener}

theorem dispatch_eq (found : r.listeners.find? id = some l) (alone : r.hasDispatchHandler = false)
    (payload : HostValue) (isFinal : Bool) : r.dispatch id payload isFinal =
      if l.once = true ∨ isFinal = true then
        (r.remove id).publish [.dispatched id isFinal, .removed id .fired]
          (stop l (.firing l.snapshot payload) (r.delivery l.snapshot payload))
      else r.publish [.dispatched id isFinal] (r.delivery l.snapshot payload) := by
  simp [dispatch, found, alone]

theorem attends_dispatch (found : r.listeners.find? id = some l)
    (alone : r.hasDispatchHandler = false) (payload : HostValue) (isFinal : Bool)
    (a : Attendants) :
    ∃ replies s passed result, Attends a (r.dispatch id payload isFinal).registry
        (r.dispatch id payload isFinal).signal replies s passed (.delivered result) ∧
      a.Settles r s l payload isFinal ((r.dispatch id payload isFinal).body ++ passed) result := by
  cases Roster.id_of_find? found
  rw [dispatch_eq found alone]
  split
  next last =>
    obtain ⟨replies, s, passed, result, delivers, attends⟩ := a.delivers
      (((r.remove l.id).record (.dispatched l.id isFinal)).record (.removed l.id .fired))
      l.snapshot payload
    obtain ⟨replies', stopping, attends, hlog, hevaluations⟩ := a.attends_stop (l := l) attends
    refine ⟨replies', s, stopping ++ passed, result, attends, ?_⟩
    rw [← List.append_assoc]
    refine delivers.settles rfl rfl rfl (if_pos last).symm ?_ ?_
    · rw [Trace.evaluations_append, hevaluations]
      rfl
    · rw [Trace.log_append, hlog, if_pos last]
      rfl
  next stays =>
    obtain ⟨replies, s, passed, result, delivers, attends⟩ := a.delivers
      (r.record (.dispatched l.id isFinal)) l.snapshot payload
    exact ⟨replies, s, passed, result, attends, delivers.settles rfl rfl rfl (if_neg stays).symm rfl
      (by rw [if_neg stays]; rfl)⟩

end Registry

namespace Machine

/-- A dispatch, where nobody calls the registry meanwhile, goes one way. It removes its listener if
that fires for the last time and changes no other, whatever comes of the delivery. -/
theorem dispatch_settles {m : Machine} {id : ListenerId} {l : Listener}
    (found : m.registry.listeners.find? id = some l)
    (alone : m.registry.hasDispatchHandler = false) (payload : HostValue) (isFinal : Bool)
    (a : Attendants) :
    ∃ (replies : List Reply) (s : Registry) (trace : Trace)
      (result : Except ListenerError (Option Value)),
      (∀ (replies' : List Reply) (n : Machine) (trace' : Trace) (outcome : Outcome),
        m.Performs (.dispatch id payload isFinal)
            (.call (.dispatch id payload isFinal) :: replies'.map .reply) n trace' outcome ∧
          a.Answers trace' ↔
        replies' = replies ∧ n = { registry := s, pending := m.pending } ∧ trace' = trace ∧
          outcome = .delivered result) ∧
      a.Settles m.registry s l payload isFinal trace result ∧
      ∀ e, payload.coerce = .error e → trace.evaluations = [] := by
  obtain ⟨replies, s, passed, result, attends, settles⟩ :=
    Registry.attends_dispatch found alone payload isFinal a
  have allowed : m.mayCall (.dispatch id payload isFinal) = true := rfl
  have evaluations := (Trace.evaluations_call (.dispatch id payload isFinal) _
    (.delivered result)).trans settles.evaluations
  have log := (Trace.log_call (.dispatch id payload isFinal) _
    (.delivered result)).trans settles.log
  refine ⟨replies, s, _, result, fun _ _ _ _ => performs_iff_of_attends allowed attends,
    { settles with evaluations, log }, fun e refused => evaluations.trans ?_⟩
  rw [Registry.expression?_eq_none_of_error refused]
  rfl

/-- One one-shot listener is stored, with its handle, and an error handler is installed. -/
def armed : Machine where
  registry :=
    { ids := .sequential 8
      hasErrorHandler := true
      listeners := Roster.mk
        [{ id := 7, name := "tick", options := .nil, callback := some { handle := 1 }, once := true
           handle := some ⟨0⟩ }] (by decide)
      handles := 1 }

def failing : Attendants where
  stop _ := .error (.cancel "stuck")
  evaluate _ := .error (.failed "first")
  handleError _ _ := .error (.failed "second")

theorem dispatch_settles_failing : ∃ l, armed.registry.listeners.find? 7 = some l ∧
    armed.registry.hasDispatchHandler = false ∧
    ∃ (replies : List Reply) (n : Machine) (trace : Trace),
      armed.Performs (.dispatch 7 .null false) (.call (.dispatch 7 .null false) ::
        replies.map .reply) n trace (.delivered (.error (.evaluation 7 (.failed "second")))) ∧
      failing.Answers trace ∧ n.registry.listeners.ids = [] ∧
      trace.log = [.dispatched 7 false, .removed 7 .fired,
        .callbackFailed 7 (EvalError.failed "first").message] ∧
      n.registry.stats.callbackErrors = 1 := by
  have found : armed.registry.listeners.find? 7 = some _ := rfl
  refine ⟨_, found, rfl, ?_⟩
  obtain ⟨replies, s, trace, result, only, settles, -⟩ :=
    dispatch_settles found rfl .null false failing
  have failed : result = .error (.evaluation 7 (.failed "second")) :=
    (settles.resolves.failed 7 _).2 ⟨rfl, _, _, rfl, rfl, rfl⟩
  obtain ⟨performed, answered⟩ := (only replies _ trace _).2 ⟨rfl, rfl, rfl, rfl⟩
  rw [failed] at performed
  refine ⟨replies, _, trace, performed, answered, ?_, settles.log, settles.counted⟩
  rw [settles.left]
  rfl

end Machine

end ScriptEvents
