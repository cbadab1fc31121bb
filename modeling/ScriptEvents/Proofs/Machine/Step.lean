import ScriptEvents.Proofs.Machine.Course
/-!
Every course is made of acts, and so is every history of a machine that starts anew.
-/
namespace ScriptEvents

/-- What an operation waits for that is not, or no more, a registration on its way. -/
def Pending.isLate : Pending → Bool
  | resolving _ | allocating .. | settingUp _ => false
  | _ => true

def Signal.Late (signal : Signal) : Prop := ∀ p ∈ signal.pending, p.isLate = true

theorem Signal.late_done (outcome : Outcome) : (Signal.done outcome).Late := nofun

namespace Registry

theorem log_effects (t : Turn) : Trace.log t.effects = t.events := by
  have hreceipts : Trace.log (t.receipts.map .received) = [] := by
    simp [Trace.log, List.filterMap_eq_nil_iff, Effect.event?]
  have hevents : Trace.log (t.events.map .published) = t.events := by
    simp [Trace.log, List.filterMap_map, Function.comp_def, Effect.event?]
  have hsignal : Trace.log [t.signal.effect] = [] := by
    cases t.signal <;> rfl
  simp [Turn.effects, hreceipts, hevents, hsignal]

theorem replied_not_mem_effects (t : Turn) (reply : Reply) : .replied reply ∉ t.effects := by
  intro h
  have hsignal : t.signal.effect ≠ .replied reply := by
    cases t.signal <;> nofun
  simp [Turn.effects, hsignal.symm] at h

theorem registrations_effects (t : Turn) :
    Trace.registrations t.effects = t.events.filterMap LifecycleEvent.registered? := by
  rw [Trace.registrations, log_effects]

theorem tearDown_events {r : Registry} {report : CancelReport} {left : List ListenerId}
    {e : LifecycleEvent} (h : e ∈ (r.tearDown report left).events) :
    ∃ id, e = .removed id .teardown := by
  fun_induction tearDown r report left with
  | case1 => cases h
  | case2 r report id => exact ⟨id, by simpa [publish] using h⟩
  | case3 r report id left l found removed now bare later ih =>
    rcases List.mem_cons.1 h with rfl | h
    · exact ⟨id, rfl⟩
    · exact ih h
  | case4 r report id left absent ih => exact ih h

theorem tearDown_registered (r : Registry) (report : CancelReport) (left : List ListenerId) :
    (r.tearDown report left).events.filterMap LifecycleEvent.registered? = [] := by
  rw [List.filterMap_eq_nil_iff]
  intro e he
  obtain ⟨id, rfl⟩ := tearDown_events he
  rfl

@[simp] theorem tearDown_receipts (r : Registry) (report : CancelReport)
    (left : List ListenerId) : (r.tearDown report left).receipts = [] := by
  fun_induction tearDown r report left with
  | case1 | case2 => rfl
  | case3 r report id left l found removed now bare later ih => exact ih
  | case4 r report id left absent ih => exact ih

theorem tearDown_signal (r : Registry) (report : CancelReport) (left : List ListenerId) :
    (∃ final, (r.tearDown report left).signal = .done (.tornDown final)) ∨
      ∃ handle id rest partial', (r.tearDown report left).signal =
        .ask (.stop handle) (.tearingDown id rest partial') := by
  fun_induction tearDown r report left with
  | case1 r report => exact .inl ⟨report, rfl⟩
  | case2 => exact .inr ⟨_, _, _, _, rfl⟩
  | case3 r report id left l found removed now bare later ih => exact ih
  | case4 r report id left absent ih => exact ih

theorem Acts.plain {r : Registry} {e : Effect} (h : e.isPlain = true) : Acts r [e] r :=
  (Act.plain h).acts

theorem tearDown_acts (r : Registry) (report : CancelReport) (left : List ListenerId) :
    Acts r (r.tearDown report left).effects (r.tearDown report left).registry := by
  fun_induction tearDown r report left with
  | case1 => exact Acts.plain rfl
  | case2 r report id left l found removed now handle held =>
    have removal := Act.remove .teardown found (by decide)
    rw [Listener.stopping, held] at removal
    exact removal.acts
  | case3 r report id left l found removed now bare later ih =>
    have removal := Act.remove .teardown found (by decide)
    rw [Listener.stopping, bare] at removal
    simpa [Turn.effects, later, removed] using Acts.cons removal ih
  | case4 r report id left absent ih => exact ih

theorem stop_acts {r s : Registry} {l : Listener} (before : Trace) {waiting : Pending}
    {next : Signal} (h : Act r (before ++ l.stopping) s) (plain : next.effect.isPlain = true) :
    Acts r (before ++ [(stop l waiting next).effect]) s := by
  unfold Listener.stopping at h
  unfold stop
  split
  next hhandle =>
    rw [hhandle] at h
    exact h.acts
  next hnone =>
    rw [hnone, List.append_nil] at h
    exact .cons h (.plain plain)

theorem delivery_effect_isPlain (r : Registry) (listener : Snapshot) (payload : HostValue) :
    (r.delivery listener payload).effect.isPlain = true := by
  unfold delivery
  split
  · rfl
  · split <;> rfl

theorem Course.acts {r : Registry} {cause : Cause} {t : Turn} (course : Course r cause t) :
    Acts r t.effects t.registry := by
  cases course with
  | finish outcome => exact .plain rfl
  | resolve name p => exact .plain rfl
  | allocate p target outside => exact .plain rfl
  | ignore name => exact .cons (.ignore name) (.plain rfl)
  | refuse given => exact .cons (.assign given) (.plain rfl)
  | @store _ p id ids listeners target given vacant =>
    have assigned := Act.assign given
    have stored : Act { r with ids } _ _ := .store target vacant rfl
    have acts := Acts.cons assigned stored.acts
    exact acts
  | supply stored => exact .cons (.supply stored) (.plain rfl)
  | supplyLate gone => exact (Act.supplyLate gone).acts
  | reject e found => exact stop_acts [_] (.remove _ found (by decide)) rfl
  | cancel found => exact stop_acts [_] (.remove _ found (by decide)) rfl
  | tearDown report left => exact tearDown_acts ..
  | handOver payload isFinal found handled => exact (Act.handOver payload isFinal found handled).acts
  | deliver payload found alone stays =>
    exact .cons (.deliver found alone stays) (.plain (delivery_effect_isPlain ..))
  | fire payload isFinal found alone last =>
    exact stop_acts [_, _] (.fire found alone last) (delivery_effect_isPlain ..)
  | callBack listener payload result => exact .plain (delivery_effect_isPlain ..)
  | fail listener e =>
    refine .cons (.fail listener.id e.message) (.plain ?_)
    dsimp only [evaluated, publish]
    split <;> rfl

theorem stop_cases (l : Listener) (waiting : Pending) (next : Signal) :
    (∃ handle, l.handle = some handle ∧ stop l waiting next = .ask (.stop handle) waiting) ∨
      l.handle = none ∧ stop l waiting next = next := by
  unfold stop
  split
  next handle hhandle => exact .inl ⟨handle, hhandle, rfl⟩
  next hnone => exact .inr ⟨hnone, rfl⟩

theorem delivery_cases (r : Registry) (listener : Snapshot) (payload : HostValue) :
    (∃ result, r.delivery listener payload = .done (.delivered result)) ∨
      ∃ callback arguments,
        payload.coerceArguments r.config.quoteArguments = .ok arguments ∧
        listener.callback = some callback ∧
        r.delivery listener payload =
          .ask (.evaluate (.pair (.procedure callback) (.ofList arguments)))
            (.evaluating listener) := by
  unfold delivery
  split
  next e => exact .inl ⟨_, rfl⟩
  next arguments hcoerce =>
    split
    next callback hcallback => exact .inr ⟨callback, arguments, hcoerce, hcallback, rfl⟩
    next => exact .inl ⟨_, rfl⟩

theorem mem_pending_stop {l : Listener} {waiting p : Pending} {next : Signal}
    (h : p ∈ (stop l waiting next).pending) : p = waiting ∨ p ∈ next.pending := by
  rcases stop_cases l waiting next with ⟨_, -, hstop⟩ | ⟨-, hstop⟩
  · rw [hstop] at h
    exact .inl (List.mem_singleton.1 h)
  · rw [hstop] at h
    exact .inr h

theorem mem_pending_delivery {r : Registry} {listener : Snapshot} {payload : HostValue}
    {p : Pending} (h : p ∈ (r.delivery listener payload).pending) : p = .evaluating listener := by
  rcases r.delivery_cases listener payload with ⟨_, hdone⟩ | ⟨_, _, -, -, hask⟩
  · rw [hdone] at h
    cases h
  · rw [hask] at h
    exact List.mem_singleton.1 h

theorem mem_pending_tearDown {r : Registry} {report : CancelReport} {left : List ListenerId}
    {p : Pending} (h : p ∈ (r.tearDown report left).signal.pending) :
    ∃ id rest partial', p = .tearingDown id rest partial' := by
  rcases tearDown_signal r report left with ⟨_, hdone⟩ | ⟨_, id, rest, partial', hask⟩
  · rw [hdone] at h
    cases h
  · rw [hask] at h
    exact ⟨id, rest, partial', List.mem_singleton.1 h⟩

theorem mem_pending_evaluated {r : Registry} {listener : Snapshot} {e : EvalError} {p : Pending}
    (h : p ∈ (r.evaluated listener (.error e)).signal.pending) : p = .recovering listener.id := by
  dsimp only [evaluated, publish] at h
  split at h
  · exact List.mem_singleton.1 h
  · cases h

theorem stop_late {l : Listener} {waiting : Pending} {next : Signal}
    (h : waiting.isLate = true) (hnext : next.Late) : (stop l waiting next).Late := by
  intro p hp
  rcases mem_pending_stop hp with rfl | hp
  · exact h
  · exact hnext p hp

theorem delivery_late (r : Registry) (listener : Snapshot) (payload : HostValue) :
    (r.delivery listener payload).Late := by
  intro p hp
  rw [mem_pending_delivery hp]
  rfl

theorem tearDown_late (r : Registry) (report : CancelReport) (left : List ListenerId) :
    (r.tearDown report left).signal.Late := by
  intro p hp
  obtain ⟨_, _, _, rfl⟩ := mem_pending_tearDown hp
  rfl

theorem evaluated_late (r : Registry) (listener : Snapshot) (e : EvalError) :
    (r.evaluated listener (.error e)).signal.Late := by
  intro p hp
  rw [mem_pending_evaluated hp]
  rfl

theorem Course.outside_of_allocating {r : Registry} {cause : Cause} {t : Turn}
    (course : Course r cause t) {p : Proposal} {target : Directive}
    (h : .allocating p target ∈ t.signal.pending) : r.ids = .external := by
  cases course with
  | allocate p target outside => exact outside
  | reject e found => cases stop_late rfl (Signal.late_done _) _ h
  | cancel found => cases stop_late rfl (Signal.late_done _) _ h
  | tearDown report left => cases tearDown_late r report left _ h
  | deliver payload found alone stays => cases delivery_late r _ payload _ h
  | fire payload isFinal found alone last => cases stop_late rfl (delivery_late r _ payload) _ h
  | callBack listener payload result => cases delivery_late r listener payload _ h
  | fail listener e => cases evaluated_late r listener e _ h
  | _ => simp [publish, Registry.ignore, Registry.refuse, active, Turn.receive, Signal.pending] at h

theorem Course.ids_eq_external {r : Registry} {cause : Cause} {t : Turn}
    (course : Course r cause t) (outside : r.ids = .external) : t.registry.ids = .external :=
  course.acts.ids_eq_external outside

end Registry

namespace Machine

theorem step_eq_some {m m' : Machine} {move : Move} {seen : Trace}
    (h : m.step move = some (m', seen)) :
    (∃ change, m' = { m with registry := m.registry.editDirectory change } ∧ seen = []) ∨
      ∃ cause others t, m.pending = cause.pending ++ others ∧ m.registry.turn? cause = some t ∧
        m' = { registry := t.registry, pending := t.signal.pending ++ others } ∧
        seen = cause.effect :: t.effects := by
  cases move with
  | call operation =>
    simp only [step] at h
    split at h
    · cases h
      exact .inr ⟨.call operation, m.pending, _, rfl, rfl, rfl, rfl⟩
    · cases h
  | reply reply =>
    simp only [step] at h
    split at h
    next waiting others hpending =>
      obtain ⟨t, hturn, hfinish⟩ := Option.map_eq_some_iff.1 h
      cases hfinish
      exact .inr ⟨.reply waiting reply, others, t, hpending, hturn, rfl, rfl⟩
    next => cases h
  | edit change =>
    cases h
    exact .inl ⟨change, rfl, rfl⟩

/-- Operations wait for an id only if it comes from outside. -/
def AwaitsIdsOutside (m : Machine) : Prop :=
  ∀ p target, .allocating p target ∈ m.pending → m.registry.ids = .external

theorem IsNew.awaitsIdsOutside {m : Machine} (new : m.IsNew) : m.AwaitsIdsOutside := by
  intro p target h
  rw [new.pending] at h
  cases h

/-- A move of a machine that waits for ids outside alone: an edit, or a course. -/
theorem AwaitsIdsOutside.step {m m' : Machine} {move : Move} {seen : Trace}
    (inv : m.AwaitsIdsOutside) (h : m.step move = some (m', seen)) :
    (∃ change, m' = { m with registry := m.registry.editDirectory change } ∧ seen = []) ∨
      ∃ cause others t, m.pending = cause.pending ++ others ∧ m.registry.Course cause t ∧
        m' = { registry := t.registry, pending := t.signal.pending ++ others } ∧
        seen = cause.effect :: t.effects := by
  rcases step_eq_some h with hedit | ⟨cause, others, t, hpending, hturn, hm, hseen⟩
  · exact .inl hedit
  · refine .inr ⟨cause, others, t, hpending, ?_, hm, hseen⟩
    cases cause with
    | call operation =>
      cases hturn
      exact Registry.start_course ..
    | reply waiting reply =>
      refine Registry.resume_course hturn fun p target hwaiting => inv p target ?_
      simp [hpending, Cause.pending, hwaiting]

theorem AwaitsIdsOutside.preserved {m m' : Machine} {move : Move} {seen : Trace}
    (inv : m.AwaitsIdsOutside) (h : m.step move = some (m', seen)) : m'.AwaitsIdsOutside := by
  intro p target hmem
  rcases inv.step h with ⟨change, rfl, -⟩ | ⟨cause, others, t, hpending, course, rfl, -⟩
  · simpa using inv p target hmem
  · apply course.ids_eq_external
    rcases List.mem_append.1 hmem with hmem | hmem
    · exact course.outside_of_allocating hmem
    · exact inv p target (by simp [hpending, hmem])

theorem AwaitsIdsOutside.acts {m m' : Machine} {move : Move} {seen : Trace}
    (inv : m.AwaitsIdsOutside) (h : m.step move = some (m', seen)) :
    m.registry.Acts seen m'.registry := by
  rcases inv.step h with ⟨change, rfl, rfl⟩ | ⟨cause, others, t, -, course, rfl, rfl⟩
  · exact (Registry.Act.edit change).acts
  · exact .cons (.plain cause.effect_isPlain) course.acts

theorem AwaitsIdsOutside.run {m m' : Machine} {moves : List Move} {trace : Trace}
    (awaits : m.AwaitsIdsOutside) (history : m.run moves = some (m', trace)) :
    m'.AwaitsIdsOutside ∧ m.registry.Acts trace m'.registry := by
  have first : m.AwaitsIdsOutside ∧ m.registry.Acts [] m.registry := ⟨awaits, .nil⟩
  exact run_preserves (fun trace n => n.AwaitsIdsOutside ∧ m.registry.Acts trace n.registry)
    (fun inv hmove => ⟨inv.1.preserved hmove, inv.2.append (inv.1.acts hmove)⟩) first history

/-- What is invariant under moves that are edits or courses holds after every history. -/
theorem IsNew.invariant {start m : Machine} {moves : List Move} {trace : Trace}
    (Inv : Trace → Machine → Prop) (new : start.IsNew) (history : start.run moves = some (m, trace))
    (first : Inv [] start)
    (hstep : ∀ {before m move m' seen}, Inv before m → m.AwaitsIdsOutside →
      m.step move = some (m', seen) → Inv (before ++ seen) m') : Inv trace m := by
  have h := run_preserves (fun trace m => m.AwaitsIdsOutside ∧ Inv trace m)
    (fun inv hmove => ⟨inv.1.preserved hmove, hstep inv.2 inv.1 hmove⟩)
    ⟨new.awaitsIdsOutside, first⟩ history
  exact h.2

theorem IsNew.acts {start m : Machine} {moves : List Move} {trace : Trace} (new : start.IsNew)
    (history : start.run moves = some (m, trace)) : start.registry.Acts trace m.registry :=
  new.invariant (fun trace m => start.registry.Acts trace m.registry) history .nil
    fun inv awaits hmove => inv.append (awaits.acts hmove)

end Machine

end ScriptEvents
