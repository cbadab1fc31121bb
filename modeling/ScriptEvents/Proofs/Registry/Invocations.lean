import ScriptEvents.Proofs.Registry.Provenance
/-!
Invocations: a directive is invoked once for every listener that is stored, at once, and never
otherwise.
-/
namespace ScriptEvents

def Effect.invocation? : Effect → Option ListenerId
  | asked (.invoke _ _ id) => some id
  | _ => none

def Effect.isSetUp (e : Effect) : Bool :=
  e.invocation?.isSome || (e.event?.bind LifecycleEvent.registered?).isSome

theorem Effect.isSetUp_of_isPlain {e : Effect} (h : e.isPlain = true) : e.isSetUp = false := by
  unfold isPlain at h
  split at h <;> first | rfl | cases h

theorem Listener.isSetUp_of_mem_stopping {l : Listener} {e : Effect} (h : e ∈ l.stopping) :
    e.isSetUp = false := by
  unfold stopping at h
  split at h
  · cases List.mem_singleton.1 h
    rfl
  · cases h

def Outcome.invoked : Outcome → Nat
  | registered (.ok (.active _)) | registered (.error (.directive ..)) => 1
  | _ => 0

def Pending.invoked : Pending → Nat
  | settingUp _ | stoppingLate _ | rejecting .. => 1
  | _ => 0

def Signal.invoked : Signal → Nat
  | ask _ waiting => waiting.invoked
  | done outcome => outcome.invoked

def Cause.invoked : Cause → Nat
  | call _ => 0
  | reply waiting _ => waiting.invoked

namespace Trace

def invocations (trace : Trace) : List ListenerId := trace.filterMap Effect.invocation?

inductive Prompt : Trace → Prop where
  | nil : Prompt []
  | other {e : Effect} {rest : Trace} (h : e.isSetUp = false) (prompt : Prompt rest) :
      Prompt (e :: rest)
  | store {rest : Trace} (id : ListenerId) (name : String) (once : Bool) (target : Directive)
      (options : Value) (prompt : Prompt rest) :
      Prompt (.published (.registered id name once) :: .asked (.invoke target options id) :: rest)

@[simp] theorem invocations_append (a b : Trace) :
    invocations (a ++ b) = invocations a ++ invocations b :=
  List.filterMap_append

theorem Prompt.append {a b : Trace} (ha : a.Prompt) (hb : b.Prompt) : Prompt (a ++ b) := by
  induction ha with
  | nil => exact hb
  | other h _ ih => exact .other h ih
  | store id name once target options _ ih => exact .store id name once target options ih

theorem Prompt.of_forall {trace : Trace} (h : ∀ e ∈ trace, e.isSetUp = false) :
    trace.Prompt := by
  induction trace with
  | nil => exact .nil
  | cons e rest ih =>
    rw [List.forall_mem_cons] at h
    exact .other h.1 (ih h.2)

theorem setUps_of_isSetUp {e : Effect} (h : e.isSetUp = false) :
    invocations [e] = [] ∧ registrations [e] = [] := by
  simp only [Effect.isSetUp, Bool.or_eq_false_iff, Option.isSome_eq_false_iff,
    Option.isNone_iff_eq_none] at h
  obtain ⟨uninvoked, unregistered⟩ := h
  constructor
  · simp [invocations, uninvoked]
  · simp [registrations, log, List.filterMap_filterMap, unregistered]

theorem Prompt.invocations_eq {trace : Trace} (prompt : trace.Prompt) :
    trace.invocations = trace.registrations := by
  induction prompt with
  | nil => rfl
  | @other e rest h _ ih =>
    obtain ⟨hinvocations, hregistrations⟩ := setUps_of_isSetUp h
    rw [← List.singleton_append, invocations_append, registrations_append, hinvocations,
      hregistrations, ih]
  | store id name once target options _ ih => exact congrArg (id :: ·) ih

theorem Prompt.asked_of_published {trace before after : Trace} {id : ListenerId} {name : String}
    {once : Bool} (prompt : trace.Prompt)
    (split : trace = before ++ .published (.registered id name once) :: after) :
    ∃ target options rest, after = .asked (.invoke target options id) :: rest := by
  induction prompt generalizing before with
  | nil => simp at split
  | other h _ ih =>
    cases before with
    | nil =>
      cases split
      cases h
    | cons _ before => exact ih (List.cons.inj split).2
  | store id' name' once' target options _ ih =>
    match before with
    | [] =>
      cases split
      exact ⟨target, options, _, rfl⟩
    | [_] => cases split
    | _ :: _ :: before => exact ih (List.cons.inj (List.cons.inj split).2).2

end Trace

theorem ListenRequest.invoked_of_ofValue {request : Value} {e : ListenerError}
    (h : ofValue request = .error e) : Outcome.invoked (.registered (.error e)) = 0 := by
  unfold ofValue at h
  split at h
  · cases h
    rfl
  · split at h <;> cases h <;> rfl

theorem Cause.Proposes.invoked_eq {cause : Cause} {p : Proposal} (proposed : cause.Proposes p) :
    cause.invoked = 0 := by
  cases proposed <;> rfl

theorem Cause.TearsDown.invoked_eq {cause : Cause} {report : CancelReport} {left : List ListenerId}
    (reached : cause.TearsDown report left) : cause.invoked = 0 := by
  cases reached <;> rfl

namespace Registry

variable {r s : Registry} {seen : Trace} {cause : Cause} {t : Turn}

theorem Act.prompt (act : Act r seen s) : seen.Prompt := by
  cases act with
  | plain h => exact .other (Effect.isSetUp_of_isPlain h) .nil
  | edit => exact .nil
  | store target vacant bare => exact .store _ _ _ _ _ .nil
  | remove reason found =>
    exact .other rfl (.of_forall fun _ => Listener.isSetUp_of_mem_stopping)
  | fire found =>
    exact .other rfl (.other rfl (.of_forall fun _ => Listener.isSetUp_of_mem_stopping))
  | handOver | supplyLate => exact .other rfl (.other rfl .nil)
  | _ => exact .other rfl .nil

theorem Acts.prompt (acts : Acts r seen s) : seen.Prompt := by
  induction acts with
  | nil => exact .nil
  | cons first _ ih => exact first.prompt.append ih

theorem Finishes.invoked_eq {outcome : Outcome} (ends : r.Finishes cause outcome) :
    outcome.invoked = cause.invoked := by
  cases ends with
  | malformed h => exact ListenRequest.invoked_of_ofValue h
  | unresolved e proposed => exact proposed.invoked_eq.symm
  | unknown proposed => exact proposed.invoked_eq.symm
  | uncallable proposed => exact proposed.invoked_eq.symm
  | _ => rfl

theorem invoked_stop (l : Listener) {waiting : Pending} {next : Signal}
    (h : next.invoked = waiting.invoked) : (stop l waiting next).invoked = waiting.invoked := by
  rcases stop_cases l waiting next with ⟨_, -, hstop⟩ | ⟨-, hstop⟩
  · rw [hstop]
    rfl
  · rw [hstop, h]

theorem invoked_delivery (r : Registry) (listener : Snapshot) (payload : HostValue) :
    (r.delivery listener payload).invoked = 0 := by
  rcases r.delivery_cases listener payload with ⟨_, hdone⟩ | ⟨_, _, -, -, hask⟩
  · rw [hdone]
    rfl
  · rw [hask]
    rfl

theorem Course.invoked_eq (course : Course r cause t) :
    t.signal.invoked = cause.invoked + (Trace.invocations t.effects).length := by
  rw [course.acts.prompt.invocations_eq, registrations_effects]
  cases course with
  | finish outcome ends => exact ends.invoked_eq
  | resolve name p proposed => exact proposed.invoked_eq.symm
  | allocate p target outside proposed => exact proposed.invoked_eq.symm
  | ignore name proposed => exact proposed.invoked_eq.symm
  | refuse given proposed => exact proposed.invoked_eq.symm
  | store target given vacant proposed => exact congrArg (· + 1) proposed.invoked_eq.symm
  | reject e found => exact invoked_stop _ rfl
  | cancel found => exact invoked_stop _ rfl
  | tearDown report left reached =>
    rw [tearDown_registered, reached.invoked_eq]
    rcases tearDown_signal r report left with ⟨_, hsignal⟩ | ⟨_, _, _, _, hsignal⟩
    · rw [hsignal]
      rfl
    · rw [hsignal]
      rfl
  | deliver payload found => exact invoked_delivery ..
  | fire payload isFinal found => exact invoked_stop _ (invoked_delivery ..)
  | callBack => exact invoked_delivery ..
  | fail listener e =>
    dsimp only [evaluated, publish]
    split <;> rfl
  | _ => rfl

end Registry

namespace Contract

/-- An operation itself has invoked as many directives as it should at that stage. -/
def invoking : Contract where
  Waits _ _ passed waiting := passed.own.invocations.length = waiting.invoked
  Ends _ _ passed outcome := passed.own.invocations.length = outcome.invoked

theorem invoking_kept (start : Machine) : invoking.Kept start := by
  have additive (a b : Trace) : (a ++ b).invocations.length =
      a.invocations.length + b.invocations.length := by
    rw [Trace.invocations_append, List.length_append]
  exact @counting_kept (fun trace => trace.invocations.length) Pending.invoked Outcome.invoked
    additive (fun _ => rfl) (fun _ => rfl) (fun course => course.invoked_eq) start

end Contract

namespace Machine

variable {start m : Machine} {moves : List Move} {trace before after : Trace} {id : ListenerId}
  {target : Directive} {options : Value}

/-- When a directive is invoked, the operation in progress is a registration that was just given an
id, and what it asks for was stored under that. -/
theorem IsNew.stores (new : start.IsNew) (history : start.run moves = some (m, trace))
    (split : trace = before ++ .asked (.invoke target options id) :: after) :
    ∃ (first rest : List Move) (n : Machine) (others : List Pending) (earlier : Trace)
      (operation : Operation) (p : Proposal), moves = first ++ rest ∧
      start.run first = some (n, before ++ [.asked (.invoke target options id)]) ∧
      n.run rest = some (m, after) ∧ n.pending = .settingUp (p.subscription id) :: others ∧
      before = earlier ++ [.received (.id p.session id), .published (.registered id p.name p.once)] ∧
      earlier.InCharge operation ∧ operation.Proposes p ∧ options = p.options ∧
      n.registry.listeners.find? id = some { p.subscription id with handle := none } := by
  obtain @⟨first, rest, move, n, seen, cause, others, t, rfl, hfirst, hturn, waited, course, ends,
    rfl, hafter⟩ := new.awaitsIdsOutside.turnEnds history split rfl
  have invoked := run_concat hfirst hturn
  rw [t.effects_eq, ends, ← List.cons_append, ← List.append_assoc] at invoked
  rcases course.store_or_none with ⟨p, id', target', ids, listeners, proposed, vacant, rfl⟩ | hnone
  · cases ends
    have flat : Trace.Flat [] := nofun
    obtain ⟨operation, charge, serves⟩ := new.inCharge hfirst waited flat
    refine ⟨first ++ [move], rest, _, others, _, operation, p, by simp, invoked, hafter, rfl, ?_,
      charge, proposed.of_serves serves, rfl, Roster.find?_insert?_self vacant⟩
    rw [List.append_assoc]
    rfl
  · have hmem : id ∈ Trace.invocations t.effects := by
      rw [t.effects_eq, ends, Trace.invocations_append]
      exact List.mem_append_right _ (List.mem_singleton.2 rfl)
    rw [course.acts.prompt.invocations_eq, hnone] at hmem
    cases hmem

theorem IsNew.invokes (new : start.IsNew) (history : start.run moves = some (m, trace))
    (split : trace = before ++ .asked (.invoke target options id) :: after) :
    ∃ (first rest : List Move) (n : Machine) (others : List Pending) (earlier : Trace)
      (operation : Operation) (p : Proposal), moves = first ++ rest ∧
      start.run first = some (n, before ++ [.asked (.invoke target options id)]) ∧
      n.run rest = some (m, after) ∧ n.pending = .settingUp (p.subscription id) :: others ∧
      before = earlier ++ [.published (.registered id p.name p.once)] ∧
      earlier.InCharge operation ∧ operation.Proposes p ∧ options = p.options ∧
      n.registry.listeners.find? id = some { p.subscription id with handle := none } := by
  obtain ⟨first, rest, n, others, earlier, operation, p, hmoves, hfirst, hrest, waits, rfl, charge,
    asked⟩ := new.stores history split
  refine ⟨first, rest, n, others, _, operation, p, hmoves, hfirst, hrest, waits, ?_,
    charge.append (Trace.Flat.singleton (e := .received (.id p.session id)) rfl).balanced, asked⟩
  rw [List.append_assoc]
  rfl

/-- Directives are invoked for the listeners stored, and for nothing else. -/
structure InvokesForStored (start : Machine) (moves : List Move) (trace : Trace) : Prop where
  inOrder : trace.invocations = trace.registrations
  atOnce (before : Trace) (id : ListenerId) (name : String) (once : Bool) (after : Trace) :
    trace = before ++ .published (.registered id name once) :: after →
      ∃ target options rest, after = .asked (.invoke target options id) :: rest
  stored (before : Trace) (target : Directive) (options : Value) (id : ListenerId)
      (after : Trace) : trace = before ++ .asked (.invoke target options id) :: after →
    ∃ (first rest : List Move) (n : Machine) (earlier : Trace) (request : Value)
      (session : Option Session) (name : String) (once : Bool), moves = first ++ rest ∧
      start.run first = some (n, before ++ [.asked (.invoke target options id)]) ∧
      before = earlier ++ [.published (.registered id name once)] ∧
      earlier.InCharge (.register request session once) ∧ request.isList = true ∧
      request.items[0]?.bind Value.key? = some name ∧ options = request.items[1]?.getD .nil ∧
      n.registry.listeners.find? id = some
        { id, name, options, once, callback := request.items[2]?.bind Value.procedure?,
          handle := none }
  own (before : Trace) (operation : Operation) (passed : Trace) (outcome : Outcome)
      (after : Trace) :
    trace = before ++ .called operation :: (passed ++ .returned outcome :: after) →
      passed.Balanced → passed.own.invocations.length = outcome.invoked

theorem directives_invoked_for_stored (new : start.IsNew)
    (history : start.run moves = some (m, trace)) : InvokesForStored start moves trace where
  inOrder := (new.acts history).prompt.invocations_eq
  atOnce _ _ _ _ _ split := (new.acts history).prompt.asked_of_published split
  stored before target options id after split := by
    obtain ⟨first, rest, n, -, earlier, operation, p, hmoves, hfirst, -, -, hbefore, charge,
      proposed, rfl, found⟩ := new.invokes history split
    obtain @⟨request, session, once, parts, name, parsed, named⟩ := proposed
    obtain ⟨hlist, hname, hoptions, hcallback⟩ := ListenRequest.items_of_ofValue parsed
    refine ⟨first, rest, n, earlier, request, session, name, once, hmoves, hfirst, hbefore, charge,
      hlist, ?_, hoptions, ?_⟩
    · rw [hname]
      exact named
    · rw [found, ← hcallback]
      rfl
  own := (new.contract (Contract.invoking_kept start) history).2

theorem directives_invoked_for_stored_earlyDelivery : ∃ m,
    counting.IsNew ∧ counting.run earlyDelivery = some (m, earlyDeliveryTrace) ∧
    InvokesForStored counting earlyDelivery earlyDeliveryTrace := by
  obtain ⟨m, history⟩ := counting_run_earlyDelivery
  exact ⟨m, counting_isNew, history, directives_invoked_for_stored counting_isNew history⟩

end Machine

end ScriptEvents
