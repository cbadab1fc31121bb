import ScriptEvents.Proofs.Registry.Provenance
/-!
Expressions: the evaluator only ever gets to evaluate a call of the procedure that a registration
named, on what the dispatch in progress delivers, and no payload becomes code when arguments are
quoted.
-/
namespace ScriptEvents

theorem Operation.Proposes.register_of_callback {operation : Operation} {p : Proposal}
    {callback : Procedure} (proposed : operation.Proposes p) (h : p.callback = some callback) :
    ∃ request session once, operation = .register request session once ∧
      request.isList = true ∧ request.items[2]? = some (.procedure callback) := by
  obtain @⟨request, session, once, parts, name, parsed, named⟩ := proposed
  obtain ⟨hlist, -, -, hcallback⟩ := ListenRequest.items_of_ofValue parsed
  refine ⟨request, session, once, rfl, hlist, ?_⟩
  obtain ⟨value, hvalue, hprocedure⟩ := Option.bind_eq_some_iff.1 (hcallback.symm.trans h)
  rw [hvalue]
  unfold Value.procedure? at hprocedure
  split at hprocedure <;> cases hprocedure
  rfl

namespace HostValue

/-- The payload supplies these arguments to a callback: the elements of a proper list, in order, or
else itself alone. -/
def Supplies (payload : HostValue) (arguments : List Value) : Prop :=
  ∃ value, payload.coerce = .ok value ∧
    (value = .ofList arguments ∨ value.isList = false ∧ arguments = [value])

theorem arguments_cases (value : Value) :
    value = .ofList (arguments value) ∨ value.isList = false ∧ arguments value = [value] := by
  unfold arguments Value.toList?
  split
  next hlist => exact .inl (Value.ofList_items hlist).symm
  next hlist => exact .inr ⟨by simpa using hlist, rfl⟩

theorem coerceArguments_eq_ok {payload : HostValue} {quote : Bool} {supplied : List Value}
    (h : payload.coerceArguments quote = .ok supplied) :
    ∃ arguments, payload.Supplies arguments ∧
      supplied = if quote then arguments.map Value.quote else arguments := by
  unfold coerceArguments at h
  split at h
  next value hvalue =>
    cases h
    exact ⟨arguments value, ⟨value, hvalue, arguments_cases value⟩, rfl⟩
  next => cases h

end HostValue

namespace Registry

inductive Delivers (r : Registry) : Cause → Snapshot → HostValue → Prop where
  | dispatch {id : ListenerId} {l : Listener} (payload : HostValue) (isFinal : Bool)
      (found : r.listeners.find? id = some l) :
      Delivers r (.call (.dispatch id payload isFinal)) l.snapshot payload
  | fired (listener : Snapshot) (payload : HostValue) (reply : Reply) :
      Delivers r (.reply (.firing listener payload) reply) listener payload

variable {r : Registry} {cause : Cause} {t : Turn} {listener : Snapshot} {payload : HostValue}
  {expression : Value}

theorem Course.delivers_of_firing (course : Course r cause t)
    (h : .firing listener payload ∈ t.signal.pending) : r.Delivers cause listener payload := by
  cases course with
  | reject e found =>
    rcases mem_pending_stop h with hwaiting | hdone
    · cases hwaiting
    · cases hdone
  | cancel found =>
    rcases mem_pending_stop h with hwaiting | hdone
    · cases hwaiting
    · cases hdone
  | tearDown report left =>
    obtain ⟨_, _, _, hwaiting⟩ := mem_pending_tearDown h
    cases hwaiting
  | deliver payload' found => cases mem_pending_delivery h
  | fire payload' isFinal found =>
    rcases mem_pending_stop h with hwaiting | hdelivery
    · cases hwaiting
      exact .dispatch payload isFinal found
    · cases mem_pending_delivery hdelivery
  | callBack => cases mem_pending_delivery h
  | fail => cases mem_pending_evaluated h
  | _ => simp [publish, Registry.ignore, Registry.refuse, active, Turn.receive, Signal.pending] at h

theorem evaluate_of_stop {l : Listener} {waiting : Pending} {next : Signal}
    (h : (stop l waiting next).effect = .asked (.evaluate expression)) :
    next.effect = .asked (.evaluate expression) := by
  rcases stop_cases l waiting next with ⟨_, -, hstop⟩ | ⟨-, hstop⟩
  · rw [hstop] at h
    cases h
  · rwa [hstop] at h

theorem Course.delivery_of_evaluate (course : Course r cause t)
    (h : t.signal.effect = .asked (.evaluate expression)) :
    ∃ listener payload, r.Delivers cause listener payload ∧
      (r.delivery listener payload).effect = .asked (.evaluate expression) := by
  cases course with
  | reject e found => cases evaluate_of_stop h
  | cancel found => cases evaluate_of_stop h
  | tearDown report left =>
    rcases tearDown_signal r report left with ⟨_, hsignal⟩ | ⟨_, _, _, _, hsignal⟩
    · cases (congrArg Signal.effect hsignal).symm.trans h
    · cases (congrArg Signal.effect hsignal).symm.trans h
  | deliver payload found => exact ⟨_, payload, .dispatch payload false found, h⟩
  | fire payload isFinal found =>
    exact ⟨_, payload, .dispatch payload isFinal found, evaluate_of_stop h⟩
  | callBack listener payload result => exact ⟨listener, payload, .fired .., h⟩
  | fail listener e =>
    dsimp only [evaluated, publish] at h
    split at h <;> cases h
  | _ => cases h

theorem delivery_evaluates
    (h : (r.delivery listener payload).effect = .asked (.evaluate expression)) :
    ∃ callback arguments, listener.callback = some callback ∧ payload.Supplies arguments ∧
      expression = .ofList (.procedure callback ::
        if r.config.quoteArguments then arguments.map Value.quote else arguments) := by
  rcases r.delivery_cases listener payload with ⟨_, hdone⟩ |
    ⟨callback, supplied, hsupplied, hcallback, hask⟩
  · rw [hdone] at h
    cases h
  · rw [hask] at h
    cases h
    obtain ⟨arguments, supplies, rfl⟩ := HostValue.coerceArguments_eq_ok hsupplied
    exact ⟨callback, arguments, hcallback, supplies, rfl⟩

end Registry

namespace Contract

/-- A dispatch that has removed its listener delivers to it as it was stored when called. -/
def delivering : Contract :=
  standing fun before operation waiting => ∀ listener payload, waiting = .firing listener payload →
    (∃ isFinal, operation = .dispatch listener.id payload isFinal) ∧
      before.Stems listener.toSubscription

theorem delivering_kept {start : Machine} (new : start.IsNew) : delivering.Kept start where
  calls history _ course := standing_meets fun waiting h listener payload hwaiting => by
    subst hwaiting
    cases course.delivers_of_firing h with
    | @dispatch id l payload isFinal found =>
      have hid : l.snapshot.id = id := Roster.id_of_find? found
      exact ⟨⟨isFinal, by rw [hid]⟩, new.stems history found⟩
  replies _ _ _ waits course := standing_meets fun waiting h listener payload hwaiting => by
    subst hwaiting
    cases course.delivers_of_firing h with
    | fired => exact waits listener payload rfl
  nests _ _ waits _ := waits

end Contract

/-- The operation in progress after the trace dispatches the payload to a listener whose
registration named this callback. -/
def Trace.Dispatching (trace : Trace) (payload : HostValue) (callback : Procedure) : Prop :=
  ∃ (before passed : Trace) (id : ListenerId) (isFinal : Bool),
    trace = before ++ .called (.dispatch id payload isFinal) :: passed ∧ passed.Balanced ∧
    ∃ request session once, before.RegisteredBy id (.register request session once) ∧
      request.isList = true ∧ request.items[2]? = some (.procedure callback)

theorem Trace.Stems.registeredBy {trace : Trace} {s : Subscription} {callback : Procedure}
    (stems : trace.Stems s) (h : s.callback = some callback) :
    ∃ request session once, trace.RegisteredBy s.id (.register request session once) ∧
      request.isList = true ∧ request.items[2]? = some (.procedure callback) := by
  obtain ⟨operation, p, registered, proposed, hs⟩ := stems
  have hp : p.callback = some callback := by
    rw [← h, hs]
    rfl
  obtain ⟨request, session, once, rfl, hlist, hprocedure⟩ := proposed.register_of_callback hp
  exact ⟨request, session, once, registered, hlist, hprocedure⟩

namespace Machine

variable {start m n : Machine} {moves : List Move} {trace before after : Trace} {cause : Cause}
  {others : List Pending} {listener : Snapshot} {payload : HostValue} {callback : Procedure}
  {t : Turn} {expression : Value}

theorem IsNew.dispatching (new : start.IsNew) (history : start.run moves = some (n, trace))
    (waited : n.pending = cause.pending ++ others)
    (delivers : n.registry.Delivers cause listener payload)
    (named : listener.callback = some callback) :
    Trace.Dispatching (trace ++ cause.effect :: t.body) payload callback := by
  cases delivers with
  | @dispatch id l payload isFinal found =>
    have hid : l.id = id := Roster.id_of_find? found
    obtain ⟨request, session, once, registered, hlist, hcallback⟩ :=
      (new.stems history found).registeredBy named
    rw [hid] at registered
    exact ⟨trace, t.body, id, isFinal, rfl, t.body_flat.balanced, request, session, once,
      registered, hlist, hcallback⟩
  | fired listener payload reply =>
    obtain ⟨earlier, operation, passed, rfl, balanced, waits⟩ :=
      new.waits (Contract.delivering_kept new) history waited
    obtain ⟨⟨isFinal, rfl⟩, stems⟩ := waits listener payload rfl
    exact ⟨earlier, passed ++ .replied reply :: t.body, listener.id, isFinal,
      List.append_assoc .., balanced.append_flat (.append (.singleton rfl) t.body_flat),
      stems.registeredBy named⟩

/-- Every expression that is evaluated is a call of the procedure that the listener's registration
named, on the arguments that the dispatched payload supplies, each under a quote if the
configuration asks for that. -/
theorem evaluates_callback_on_payload (new : start.IsNew)
    (history : start.run moves = some (m, trace))
    (split : trace = before ++ .asked (.evaluate expression) :: after) :
    ∃ payload callback arguments,
      before.Dispatching payload callback ∧ payload.Supplies arguments ∧
      expression = .ofList (.procedure callback ::
        if start.registry.config.quoteArguments then
          arguments.map fun argument => .ofList [.symbol "quote", argument]
        else arguments) := by
  obtain ⟨-, hfirst, -, waited, course, ends, rfl, -⟩ :=
    new.awaitsIdsOutside.turnEnds history split rfl
  obtain ⟨listener, payload, delivers, hdelivery⟩ := course.delivery_of_evaluate ends
  obtain ⟨callback, arguments, named, supplies, rfl⟩ := Registry.delivery_evaluates hdelivery
  refine ⟨payload, callback, arguments, new.dispatching hfirst waited delivers named, supplies, ?_⟩
  rw [(new.acts hfirst).config_eq]
  rfl

theorem evaluates_callback_on_payload_earlyDelivery : ∃ m,
    counting.IsNew ∧ counting.run earlyDelivery = some (m, earlyDeliveryTrace) ∧
    earlyDeliveryTrace = earlyDeliveryTrace.take 9 ++
      .asked (.evaluate (.ofList [.procedure { handle := 1 }, .quote (.boolean true)])) ::
        earlyDeliveryTrace.drop 10 ∧
    ∃ payload callback arguments,
      Trace.Dispatching (earlyDeliveryTrace.take 9) payload callback ∧
      payload.Supplies arguments ∧
      Value.ofList [.procedure { handle := 1 }, .quote (.boolean true)] =
        .ofList (.procedure callback ::
          if counting.registry.config.quoteArguments then
            arguments.map fun argument => .ofList [.symbol "quote", argument]
          else arguments) := by
  obtain ⟨m, history⟩ := counting_run_earlyDelivery
  exact ⟨m, counting_isNew, history, rfl,
    evaluates_callback_on_payload counting_isNew history rfl⟩

end Machine

end ScriptEvents
