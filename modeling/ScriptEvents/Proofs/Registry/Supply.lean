import ScriptEvents.Proofs.Registry.Completion
/-!
Supply: a handle is that of the listener for which its directive was invoked, whatever was nested in
the directive. It is kept with that listener, or it runs once, after the listener was removed.
-/
namespace ScriptEvents

/-- The directive that was invoked for this listener has not returned yet, and all that has passed
since then is nested in it. -/
def Trace.SettingUp (trace : Trace) (id : ListenerId) : Prop :=
  ∃ (earlier : Trace) (target : Directive) (options : Value) (during : Trace),
    trace = earlier ++ .asked (.invoke target options id) :: during ∧ during.Balanced ∧
      during.own = []

namespace Registry

theorem resume?_setUp {r : Registry} {waiting : Pending} {t : Turn}
    (h : r.resume? waiting (.setUp (.ok true)) = some t) :
    ∃ s handle rest,
      waiting = .settingUp s ∧ t.effects = .received (.handle s.id handle) :: rest := by
  cases waiting with
  | settingUp s =>
    simp only [resume?, setUp, Option.some.injEq] at h
    split at h <;> subst h <;> exact ⟨s, ⟨r.handles⟩, _, rfl, rfl⟩
  | _ => cases h

theorem Course.request_of_settingUp? {r : Registry} {cause : Cause} {t : Turn} {request : Request}
    {waiting : Pending} (course : Course r cause t) (asks : t.signal = .ask request waiting)
    {id : ListenerId} (awaited : waiting.settingUp? = some id) :
    ∃ target options, request = .invoke target options id := by
  have pending : t.signal.pending.filterMap Pending.settingUp? = [id] := by
    simp [asks, Signal.pending, awaited]
  rcases course.store_or_none with ⟨p, _, target, _, _, -, -, rfl⟩ | unregistered
  · cases asks
    cases awaited
    exact ⟨target, p.options, rfl⟩
  · rcases course.supplies_cases with ⟨-, registered⟩ | ⟨_, _, -, -, -, settled⟩
    · rw [pending, unregistered] at registered
      cases registered
    · rw [pending] at settled
      cases settled

end Registry

namespace Contract

def settingUp : Contract :=
  lastAsked fun request waiting => ∀ id, waiting.settingUp? = some id →
    ∃ target options, request = .invoke target options id

theorem settingUp_kept (start : Machine) : settingUp.Kept start :=
  lastAsked_kept (fun course asks _ awaited => course.request_of_settingUp? asks awaited) start

end Contract

namespace Machine

variable {start m m' : Machine} {moves : List Move} {trace before after : Trace}

theorem settingUp_of_step {move : Move}
    (h : m.step move = some (m', .replied (.setUp (.ok true)) :: after)) :
    ∃ s others handle rest, m.pending = .settingUp s :: others ∧
      after = .received (.handle s.id handle) :: rest := by
  rcases step_eq_some h with ⟨_, -, hseen⟩ | ⟨cause, others, t, hpending, hturn, -, hseen⟩
  · cases hseen
  · obtain ⟨hcause, rfl⟩ := List.cons.inj hseen
    cases cause with
    | call operation => cases hcause
    | reply waiting reply =>
      cases hcause
      obtain ⟨s, handle, rest, rfl, heffects⟩ := Registry.resume?_setUp hturn
      exact ⟨s, others, handle, rest, hpending, heffects⟩

/-- A handle goes to the listener that the innermost operation sets up when it comes. -/
theorem IsNew.supplied (new : start.IsNew) (history : start.run moves = some (m, trace))
    (split : trace = before ++ .replied (.setUp (.ok true)) :: after) :
    ∃ first n s others handle rest, start.run first = some (n, before) ∧
      n.pending = .settingUp s :: others ∧ after = .received (.handle s.id handle) :: rest := by
  obtain @⟨first, _, _, n, seen, _, _, _, cause, _, t, -, hfirst, turned, -, -, inside, hbefore,
    hafter, -⟩ := new.awaitsIdsOutside.turnHolds history split
  obtain ⟨rfl, hcause, rfl⟩ := Turn.split_replied inside
  rw [hcause] at turned
  obtain ⟨s, others, handle, rest, waits, heffects⟩ := settingUp_of_step turned
  rw [List.append_nil] at hbefore
  rw [hbefore, hafter, heffects]
  exact ⟨first, n, s, others, handle, _, hfirst, waits, rfl⟩

theorem IsNew.trace_settingUp (new : start.IsNew) (history : start.run moves = some (m, trace))
    {s : Subscription} {others : List Pending} (waits : m.pending = .settingUp s :: others) :
    trace.SettingUp s.id := by
  obtain ⟨before, operation, passed, rfl, -, earlier, request, during, rfl, balanced, inside,
    asked⟩ := new.waits (Contract.settingUp_kept start) history waits
  obtain ⟨target, options, rfl⟩ := asked s.id rfl
  exact ⟨before ++ .called operation :: earlier, target, options, during, by simp, balanced, inside⟩

/-- A directive that returns a handle returns it for the listener that it was invoked for. There the
handle stays as long as the listener is stored, and has not run; when it is not, the handle has run
once, and it did not before the listener was removed. -/
structure RunsHandlesOnce (m : Machine) (trace : Trace) : Prop where
  invoked (before after : Trace) : trace = before ++ .replied (.setUp (.ok true)) :: after →
    ∃ id, before.SettingUp id
  own (before after : Trace) (id : ListenerId) :
    trace = before ++ .replied (.setUp (.ok true)) :: after → before.SettingUp id →
      ∃ handle rest, after = .received (.handle id handle) :: rest
  distinct : (trace.supplies.map Prod.snd).Nodup
  kept (id : ListenerId) (handle : CancelHandle) : .received (.handle id handle) ∈ trace →
    m.registry.contains id = true → trace.stops.count handle = 0 ∧
      (m.registry.listeners.find? id).bind (·.handle) = some handle
  run (id : ListenerId) (handle : CancelHandle) : .received (.handle id handle) ∈ trace →
    m.registry.contains id = false → trace.stops.count handle = 1
  removed (before : Trace) (handle : CancelHandle) (after : Trace) :
    trace = before ++ .asked (.stop handle) :: after →
      ∃ id reason, .received (.handle id handle) ∈ before ∧
        .published (.removed id reason) ∈ before

theorem handle_runs_once_after_removal (new : start.IsNew)
    (history : start.run moves = some (m, trace))
    (fresh : start.registry.ids.NeverRepeats trace.allocations) : RunsHandlesOnce m trace := by
  obtain ⟨custody, owed⟩ := new.custody history fresh
  constructor
  case invoked =>
    intro before after split
    obtain ⟨_, _, s, _, _, _, hfirst, waits, -⟩ := new.supplied history split
    exact ⟨s.id, new.trace_settingUp hfirst waits⟩
  case own =>
    intro before after id split inside
    obtain ⟨earlier, target, options, during, rfl, balanced, inside⟩ := inside
    obtain ⟨_, n, s, others, handle, rest, hfirst, waits, hafter⟩ := new.supplied history split
    obtain ⟨_, _, _, p, _, -, -, -, -, awaited, -⟩ := new.settingUp hfirst balanced inside
    cases waits.symm.trans awaited
    exact ⟨handle, rest, hafter⟩
  case distinct => exact custody.sound.distinct
  case kept =>
    intro id handle received contained
    have settled := custody.settled id handle (Trace.mem_supplies.2 received)
    obtain ⟨l, found⟩ := Option.isSome_iff_exists.1 contained
    rw [found] at settled ⊢
    exact settled.symm
  case run => exact fun _ _ received gone => new.count_stops_of_gone history fresh gone received
  case removed =>
    intro before handle after split
    obtain ⟨id, hsupplied, hremoved⟩ := owed before handle after split
    obtain ⟨reason, published⟩ := Trace.mem_removals.1 hremoved
    exact ⟨id, reason, Trace.mem_supplies.1 hsupplied, published⟩

theorem handle_runs_once_after_removal_earlyDelivery :
    ∃ m, counting.IsNew ∧ counting.run earlyDelivery = some (m, earlyDeliveryTrace) ∧
      counting.registry.ids.NeverRepeats earlyDeliveryTrace.allocations ∧
      RunsHandlesOnce m earlyDeliveryTrace := by
  obtain ⟨m, history⟩ := counting_run_earlyDelivery
  exact ⟨m, counting_isNew, history, earlyDelivery_neverRepeats,
    handle_runs_once_after_removal counting_isNew history earlyDelivery_neverRepeats⟩

end Machine

end ScriptEvents
