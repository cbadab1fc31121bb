import ScriptEvents.Proofs.Registry.Provenance
/-!
Handover: where a dispatch handler is installed, what becomes of a dispatch is the handler's affair.
The registry hands it the listener and the payload as they are, calls nobody else, and removes no
listener but where it is cancelled, torn down or refused by its directive.
-/
namespace ScriptEvents

def Effect.isDelivery : Effect → Bool
  | published (.dispatched ..) | published (.removed _ .fired) | published (.callbackFailed ..)
  | asked (.evaluate _) | asked (.handleError ..) | asked (.handleDispatch ..) => true
  | _ => false

def Pending.callsBack : Pending → Bool
  | firing .. | evaluating _ | recovering _ => true
  | _ => false

namespace Registry

variable {r : Registry} {cause : Cause} {t : Turn}

structure DeliversNothing (t : Turn) : Prop where
  effects : ∀ e ∈ t.effects, e.isDelivery = false
  pending : ∀ p ∈ t.signal.pending, p.callsBack = false

theorem DeliversNothing.of_done {outcome : Outcome} (signal : t.signal = .done outcome)
    (events : ∀ event ∈ t.events, Effect.isDelivery (.published event) = false) :
    DeliversNothing t := by
  constructor
  · refine Turn.forall_effects (fun _ _ => rfl) events ?_
    rw [signal]
    rfl
  · rw [signal]
    nofun

theorem DeliversNothing.of_ask {request : Request} {waiting : Pending}
    (signal : t.signal = .ask request waiting)
    (events : ∀ event ∈ t.events, Effect.isDelivery (.published event) = false)
    (asks : Effect.isDelivery (.asked request) = false) (waits : waiting.callsBack = false) :
    DeliversNothing t := by
  constructor
  · refine Turn.forall_effects (fun _ _ => rfl) events ?_
    rw [signal]
    exact asks
  · rw [signal]
    exact List.forall_mem_singleton.2 waits

theorem DeliversNothing.of_stop {l : Listener} {waiting : Pending} {outcome : Outcome}
    (signal : t.signal = stop l waiting (.done outcome))
    (events : ∀ event ∈ t.events, Effect.isDelivery (.published event) = false)
    (waits : waiting.callsBack = false) : DeliversNothing t := by
  rcases stop_cases l waiting (.done outcome) with ⟨handle, -, hstop⟩ | ⟨-, hstop⟩
  · exact .of_ask (signal.trans hstop) events rfl waits
  · exact .of_done (signal.trans hstop) events

theorem deliversNothing_tearDown (r : Registry) (report : CancelReport) (left : List ListenerId) :
    DeliversNothing (r.tearDown report left) := by
  have events : ∀ event ∈ (r.tearDown report left).events,
      Effect.isDelivery (.published event) = false := by
    intro event h
    obtain ⟨id, rfl⟩ := tearDown_events h
    rfl
  rcases tearDown_signal r report left with ⟨_, signal⟩ | ⟨_, _, _, _, signal⟩
  · exact .of_done signal events
  · exact .of_ask signal events rfl rfl

theorem Course.handOver_or_none (course : Course r cause t) (handled : r.hasDispatchHandler = true)
    (aside : ∀ p ∈ cause.pending, p.callsBack = false) :
    (∃ id l payload isFinal, r.listeners.find? id = some l ∧
      cause = .call (.dispatch id payload isFinal) ∧
      t = r.publish [.dispatched id isFinal]
        (.ask (.handleDispatch l.snapshot payload isFinal) .handling)) ∨
    DeliversNothing t := by
  cases course with
  | handOver payload isFinal found => exact .inl ⟨_, _, payload, isFinal, found, rfl, rfl⟩
  | deliver _ _ alone | fire _ _ _ alone => cases alone.symm.trans handled
  | callBack | fail => cases aside _ List.mem_cons_self
  | finish | refuse | supply => exact .inr (.of_done rfl nofun)
  | ignore => exact .inr (.of_done rfl (List.forall_mem_singleton.2 rfl))
  | resolve | allocate | supplyLate => exact .inr (.of_ask rfl nofun rfl rfl)
  | store => exact .inr (.of_ask rfl (List.forall_mem_singleton.2 rfl) rfl rfl)
  | reject | cancel => exact .inr (.of_stop rfl (List.forall_mem_singleton.2 rfl) rfl)
  | tearDown => exact .inr (deliversNothing_tearDown ..)

theorem Course.removed_cases (course : Course r cause t) {id : ListenerId} {reason : RemovalReason}
    (removed : .removed id reason ∈ t.events) (unfired : reason ≠ .fired) :
    (cause = .call (.cancel id) ∧ reason = .cancelled) ∨
    (∃ report left, cause.TearsDown report left ∧ reason = .teardown) ∨
    (∃ s e, cause = .reply (.settingUp s) (.setUp (.error e)) ∧ s.id = id ∧
      reason = .setupFailed ∧ t.body = [.published (.removed id reason)]) := by
  cases course with
  | cancel found =>
    cases List.mem_singleton.1 removed
    exact .inl ⟨rfl, rfl⟩
  | tearDown report left reached =>
    obtain ⟨_, hremoved⟩ := tearDown_events removed
    cases hremoved
    exact .inr (.inl ⟨report, left, reached, rfl⟩)
  | @reject s l e found =>
    cases List.mem_singleton.1 removed
    exact .inr (.inr ⟨s, e, rfl, rfl, rfl, rfl⟩)
  | fire =>
    rcases List.mem_cons.1 removed with h | h
    · cases h
    · cases List.mem_singleton.1 h
      exact absurd rfl unfired
  | ignore | store | handOver | deliver | fail => cases List.mem_singleton.1 removed
  | _ => cases removed

theorem Cause.not_proposes_dispatch {id : ListenerId} {payload : HostValue} {isFinal : Bool}
    {p : Proposal} : ¬ Cause.Proposes (.call (.dispatch id payload isFinal)) p := by
  rintro (_ | _)
  contradiction

theorem Course.dispatch_cases {id : ListenerId} {payload : HostValue} {isFinal : Bool}
    (course : Course r (.call (.dispatch id payload isFinal)) t)
    (handled : r.hasDispatchHandler = true) :
    (∃ l, r.listeners.find? id = some l ∧ t = r.publish [.dispatched id isFinal]
      (.ask (.handleDispatch l.snapshot payload isFinal) .handling)) ∨
    t = r.publish [] (.done (.delivered (.ok none))) := by
  cases course with
  | handOver _ _ found => exact .inl ⟨_, found, rfl⟩
  | deliver _ _ alone | fire _ _ _ alone => cases alone.symm.trans handled
  | tearDown _ _ reached => cases reached
  | finish outcome ends =>
    cases ends with
    | deliveredNone => exact .inr rfl
    | unresolved _ proposed | unknown proposed | uncallable proposed =>
      exact absurd proposed Cause.not_proposes_dispatch
  | resolve _ _ proposed | allocate _ _ _ proposed | ignore _ proposed | refuse _ proposed
  | store _ _ _ proposed => exact absurd proposed Cause.not_proposes_dispatch

theorem Course.handling_cases {reply : Reply} (course : Course r (.reply .handling reply) t) :
    ∃ result, reply = .dispatchHandled result ∧ t = r.publish [] (.done (.delivered result)) := by
  cases course with
  | finish outcome ends =>
    cases ends with
    | handled result => exact ⟨result, rfl, rfl⟩
    | unresolved _ proposed | unknown proposed | uncallable proposed => cases proposed
  | tearDown _ _ reached => cases reached
  | resolve _ _ proposed | allocate _ _ _ proposed | ignore _ proposed | refuse _ proposed
  | store _ _ _ proposed => cases proposed

end Registry

inductive Trace.Removes (before : Trace) (id : ListenerId) : RemovalReason → Prop where
  | cancelled (charge : before.InCharge (.cancel id)) : Removes before id .cancelled
  | tornDown {order : List ListenerId} (charge : before.InCharge (.cancelAll order)) :
      Removes before id .teardown
  | refused {request : Value} {session : Option Session} {once : Bool} {earlier : Trace}
      {e : DirectiveError} (charge : before.InCharge (.register request session once))
      (returned : before = earlier ++ [.replied (.setUp (.error e))]) :
      Removes before id .setupFailed

namespace Contract

/-- A dispatch that finds its listener has this for its own part: the handler's result, if it has
come, is the last of it. -/
def HandsOver (id : ListenerId) (payload : HostValue) (isFinal : Bool) (own replied : Trace) :
    Prop :=
  ∃ l : Listener, l.id = id ∧ own = .published (.dispatched id isFinal) ::
    .asked (.handleDispatch l.snapshot payload isFinal) :: replied

def handing : Contract where
  Waits _ operation passed waiting := ∀ id payload isFinal,
    operation = .dispatch id payload isFinal →
      waiting = .handling ∧ HandsOver id payload isFinal passed.own []
  Ends _ operation passed outcome := ∀ id payload isFinal,
    operation = .dispatch id payload isFinal →
      passed = [] ∧ outcome = .delivered (.ok none) ∨
        ∃ result, HandsOver id payload isFinal passed.own [.replied (.dispatchHandled result)] ∧
          outcome = .delivered result

end Contract

namespace Machine

variable {start m : Machine} {moves : List Move} {trace : Trace}

theorem IsNew.hasDispatchHandler_eq (new : start.IsNew)
    (history : start.run moves = some (m, trace)) :
    m.registry.hasDispatchHandler = start.registry.hasDispatchHandler :=
  (new.acts history).hasDispatchHandler_eq

theorem IsNew.aside (new : start.IsNew) (handled : start.registry.hasDispatchHandler = true)
    (history : start.run moves = some (m, trace)) : ∀ p ∈ m.pending, p.callsBack = false := by
  have inv := new.invariant (fun _ m => m.registry.hasDispatchHandler = true ∧
    ∀ p ∈ m.pending, p.callsBack = false) history ?_ ?_
  · exact inv.2
  · refine ⟨handled, ?_⟩
    rw [new.pending]
    nofun
  · intro before m move m' seen inv awaits hmove
    refine ⟨(awaits.acts hmove).hasDispatchHandler_eq.trans inv.1, ?_⟩
    rcases awaits.step hmove with ⟨_, rfl, rfl⟩ | ⟨cause, others, t, hpending, course, rfl, rfl⟩
    · exact inv.2
    · rw [hpending, List.forall_mem_append] at inv
      rw [List.forall_mem_append]
      refine ⟨?_, inv.2.2⟩
      rcases course.handOver_or_none inv.1 inv.2.1 with ⟨_, _, _, _, -, -, rfl⟩ | nothing
      · exact List.forall_mem_singleton.2 rfl
      · exact nothing.pending

theorem IsNew.handing_kept (new : start.IsNew)
    (handled : start.registry.hasDispatchHandler = true) : Contract.handing.Kept start where
  calls {_ m before operation t} history _ course := by
    have handled := (new.hasDispatchHandler_eq history).trans handled
    cases operation with
    | dispatch id payload isFinal =>
      rcases course.dispatch_cases handled with ⟨l, found, rfl⟩ | rfl
      · rintro _ _ _ ⟨⟩
        exact ⟨rfl, l, Roster.id_of_find? found, rfl⟩
      · rintro _ _ _ ⟨⟩
        exact .inl ⟨rfl, rfl⟩
    | _ => cases t.signal <;> exact nofun
  replies {_ m before passed operation waiting others reply t} history hpending balanced waits
      course := by
    cases operation with
    | dispatch id payload isFinal =>
      obtain ⟨rfl, l, hid, hown⟩ := waits id payload isFinal rfl
      obtain ⟨result, rfl, rfl⟩ := course.handling_cases
      rintro _ _ _ ⟨⟩
      refine .inr ⟨result, ⟨l, hid, ?_⟩, rfl⟩
      have flat : Trace.Flat [.replied (.dispatchHandled result)] := .singleton rfl
      change Trace.own (passed ++ [.replied (.dispatchHandled result)]) = _
      rw [Trace.own_append_flat balanced flat, hown]
      rfl
    | _ => cases t.signal <;> exact nofun
  nests hpassed hinner waits _ := by
    intro id payload isFinal h
    rw [Trace.own_append_whole hpassed hinner]
    exact waits id payload isFinal h

variable {before after : Trace} {e : Effect}

structure Handover (start m : Machine) (moves : List Move) where
  first : List Move
  rest : List Move
  moved : moves = first ++ rest
  id : ListenerId
  payload : HostValue
  isFinal : Bool
  listener : Listener
  machine : Machine
  earlier : Trace
  later : Trace
  history : start.run first = some (machine, earlier ++ [.called (.dispatch id payload isFinal),
    .published (.dispatched id isFinal),
    .asked (.handleDispatch listener.snapshot payload isFinal)])
  continued : machine.run rest = some (m, later)
  found : machine.registry.listeners.find? id = some listener

namespace Handover

variable (h : Handover start m moves)

def call : Effect := .called (.dispatch h.id h.payload h.isFinal)

def event : Effect := .published (.dispatched h.id h.isFinal)

def request : Effect := .asked (.handleDispatch h.listener.snapshot h.payload h.isFinal)

end Handover

theorem IsNew.handOver_of_delivery (new : start.IsNew)
    (handled : start.registry.hasDispatchHandler = true)
    (history : start.run moves = some (m, trace)) (split : trace = before ++ e :: after)
    (delivers : e.isDelivery = true) :
    ∃ h : Handover start m moves,
      e = h.event ∧ before = h.earlier ++ [h.call] ∧ after = h.request :: h.later ∨
      e = h.request ∧ before = h.earlier ++ [h.call, h.event] ∧ after = h.later := by
  obtain @⟨first, rest, move, n, seen, early, late, later, cause, others, t, rfl, hfirst, hturn,
    waited, course, inside, rfl, rfl, hrest⟩ := new.awaitsIdsOutside.turnHolds history split
  have aside := new.aside handled hfirst
  rw [waited, List.forall_mem_append] at aside
  have handled := (new.hasDispatchHandler_eq hfirst).trans handled
  rcases course.handOver_or_none handled aside.1 with
    ⟨id, l, payload, isFinal, found, rfl, rfl⟩ | nothing
  · let h : Handover start m (first ++ move :: rest) :=
      ⟨first ++ [move], rest, by simp, id, payload, isFinal, l, _, seen, later,
        run_concat hfirst hturn, hrest, found⟩
    change [h.call, h.event, h.request] = early ++ e :: late at inside
    refine ⟨h, ?_⟩
    match early with
    | [] =>
      cases inside
      cases delivers
    | [_] =>
      cases inside
      exact .inl ⟨rfl, rfl, rfl⟩
    | [_, _] =>
      cases inside
      exact .inr ⟨rfl, rfl, rfl⟩
    | _ :: _ :: _ :: early => simp at inside
  · have hmem : e ∈ cause.effect :: t.effects := inside ▸ List.mem_append_right _ List.mem_cons_self
    rcases List.mem_cons.1 hmem with rfl | hmem
    · cases cause <;> cases delivers
    · cases (nothing.effects e hmem).symm.trans delivers

theorem IsNew.removes (new : start.IsNew) (history : start.run moves = some (m, trace))
    {id : ListenerId} {reason : RemovalReason}
    (split : trace = before ++ .published (.removed id reason) :: after)
    (unfired : reason ≠ .fired) : before.Removes id reason := by
  obtain @⟨_, _, _, _, seen, early, _, _, cause, others, t, -, hfirst, -, waited, course, inside,
    rfl, -, -⟩ := new.awaitsIdsOutside.turnHolds history split
  obtain ⟨mid, rest, rfl, hbody, flat, hevent⟩ := Turn.split_published inside
  obtain ⟨operation, charge, serves⟩ := new.inCharge hfirst waited flat
  rcases course.removed_cases hevent unfired with ⟨rfl, rfl⟩ | ⟨report, left, reached, rfl⟩ |
    ⟨s, e, rfl, -, rfl, hsingle⟩
  · cases serves
    exact .cancelled charge
  · obtain ⟨order, rfl⟩ := reached.of_serves serves
    exact .tornDown charge
  · obtain ⟨p, ⟨-, -⟩, -⟩ := serves
    have hmid : mid = [] := by
      rw [hsingle] at hbody
      cases mid with
      | nil => rfl
      | cons _ mid => simp at hbody
    subst hmid
    exact .refused charge rfl

/-- What the dispatch handler takes over, and what is left to the registry. -/
structure TakesOver (start m : Machine) (moves : List Move) (trace : Trace) : Prop where
  unevaluated (expression : Value) : .asked (.evaluate expression) ∉ trace
  unrecovered (listener : Snapshot) (e : EvalError) : .asked (.handleError listener e) ∉ trace
  unfired (id : ListenerId) : .published (.removed id .fired) ∉ trace
  unfailed (id : ListenerId) (message : String) :
    .published (.callbackFailed id message) ∉ trace
  handed (before : Trace) (id : ListenerId) (isFinal : Bool) (after : Trace) :
    trace = before ++ .published (.dispatched id isFinal) :: after →
      ∃ (first rest : List Move) (n : Machine) (earlier later : Trace) (l : Listener)
        (payload : HostValue), moves = first ++ rest ∧
        before = earlier ++ [.called (.dispatch id payload isFinal)] ∧
        after = .asked (.handleDispatch l.snapshot payload isFinal) :: later ∧
        start.run first = some (n, before ++ [.published (.dispatched id isFinal),
          .asked (.handleDispatch l.snapshot payload isFinal)]) ∧
        n.run rest = some (m, later) ∧ n.registry.listeners.find? id = some l
  asked (before : Trace) (listener : Snapshot) (payload : HostValue) (isFinal : Bool)
      (after : Trace) :
    trace = before ++ .asked (.handleDispatch listener payload isFinal) :: after →
      ∃ earlier, before = earlier ++ [.published (.dispatched listener.id isFinal)]
  returned (before : Trace) (id : ListenerId) (payload : HostValue) (isFinal : Bool)
      (passed : Trace) (outcome : Outcome) (after : Trace) :
    trace = before ++ .called (.dispatch id payload isFinal) ::
        (passed ++ .returned outcome :: after) →
      passed.Balanced → passed = [] ∧ outcome = .delivered (.ok none) ∨
        ∃ l : Listener, ∃ result, l.id = id ∧
          passed.own = [.published (.dispatched id isFinal),
            .asked (.handleDispatch l.snapshot payload isFinal),
            .replied (.dispatchHandled result)] ∧
          outcome = .delivered result
  removed (before : Trace) (id : ListenerId) (reason : RemovalReason) (after : Trace) :
    trace = before ++ .published (.removed id reason) :: after → before.Removes id reason
  gone (first rest : List Move) (n : Machine) (seen later : Trace) (id : ListenerId) :
    moves = first ++ rest → start.run first = some (n, seen) → n.run rest = some (m, later) →
      n.registry.contains id = true → m.registry.contains id = false →
        ∃ reason, .published (.removed id reason) ∈ later

def delegating : Machine :=
  { registry := { resolver := .external, ids := .sequential 7, hasDispatchHandler := true } }

/-- The handler of a final delivery to a one-shot listener delivers to it once more and cancels it,
and then fails. -/
def reenteredHandler : List Move :=
  [.call (.register (.ofList [.string "tick", .nil, .procedure { handle := 1 }]) none true),
    .reply (.resolved (.ok (some (.directive ⟨0⟩)))),
    .reply (.setUp (.ok true)),
    .call (.dispatch 7 (.map []) true),
    .call (.dispatch 7 .null false),
    .reply (.dispatchHandled (.ok none)),
    .call (.cancel 7),
    .reply (.stopped (.ok ())),
    .call (.dispatch 7 .null false),
    .reply (.dispatchHandled (.error (.handler "late")))]

end Machine

end ScriptEvents
