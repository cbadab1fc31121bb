import ScriptEvents.Proofs.Registry.Invocations
/-!
Enrollment: what becomes of the ids that registrations are given. Each id is settled at once: the
registration fails if the id is not valid or in use, and otherwise stores its listener under it.
-/
namespace ScriptEvents

namespace Effect

def refusal? : Effect → Option ListenerId
  | returned (.registered (.error (.invalidId id))) => some id
  | _ => none

/-- A registration was given an id, or went on or ended with one. -/
def isEnrollment (e : Effect) : Bool :=
  e.isSetUp || e.allocation?.isSome || e.refusal?.isSome

end Effect

def Outcome.allocated : Outcome → Nat
  | registered (.ok (.active _)) | registered (.error (.directive ..)) => 1
  | registered (.error (.invalidId _)) => 1
  | _ => 0

namespace Trace

def refusals (trace : Trace) : List ListenerId := trace.filterMap Effect.refusal?

@[simp] theorem refusals_append (a b : Trace) : refusals (a ++ b) = refusals a ++ refusals b :=
  List.filterMap_append

inductive Enrolls (barred : ListenerId → Prop) : Trace → Prop where
  | nil : Enrolls barred []
  | other {e : Effect} {rest : Trace} (h : e.isEnrollment = false) (enrolls : Enrolls barred rest) :
      Enrolls barred (e :: rest)
  | refuse {id : ListenerId} {rest : Trace} (session : Option Session) (h : barred id)
      (enrolls : Enrolls barred rest) :
      Enrolls barred (.received (.id session id) ::
        .returned (.registered (.error (.invalidId id))) :: rest)
  | store {id : ListenerId} {rest : Trace} (session : Option Session) (name : String) (once : Bool)
      (target : Directive) (options : Value) (valid : id ≠ .invalid)
      (enrolls : Enrolls barred rest) :
      Enrolls barred (.received (.id session id) :: .published (.registered id name once) ::
        .asked (.invoke target options id) :: rest)

namespace Enrolls

variable {barred other : ListenerId → Prop} {a b trace before after : Trace} {id : ListenerId}
  {session : Option Session}

theorem append (ha : Enrolls barred a) (hb : Enrolls barred b) : Enrolls barred (a ++ b) := by
  induction ha with
  | nil => exact hb
  | other h _ ih => exact .other h ih
  | refuse session h _ ih => exact .refuse session h ih
  | store session name once target options valid _ ih =>
    exact .store session name once target options valid ih

theorem of_forall (h : ∀ e ∈ trace, e.isEnrollment = false) : Enrolls barred trace := by
  induction trace with
  | nil => exact .nil
  | cons e rest ih =>
    rw [List.forall_mem_cons] at h
    exact .other h.1 (ih h.2)

theorem mono (h : Enrolls barred trace)
    (imp : ∀ id ∈ trace.allocations.map Prod.snd, barred id → other id) :
    Enrolls other trace := by
  induction h with
  | nil => exact .nil
  | @other e rest h _ ih =>
    refine .other h (ih fun id hid => imp id ?_)
    rw [← List.singleton_append, allocations_append, List.map_append]
    exact List.mem_append_right _ hid
  | refuse session h _ ih =>
    exact .refuse session (imp _ List.mem_cons_self h)
      (ih fun id hid => imp id (List.mem_cons_of_mem _ hid))
  | store session name once target options valid _ ih =>
    exact .store session name once target options valid
      (ih fun id hid => imp id (List.mem_cons_of_mem _ hid))

theorem of_isEnrollment {e : Effect} (h : e.isEnrollment = false) :
    invocations [e] = [] ∧ registrations [e] = [] ∧ allocations [e] = [] ∧ refusals [e] = [] := by
  simp only [Effect.isEnrollment, Bool.or_eq_false_iff, Option.isSome_eq_false_iff,
    Option.isNone_iff_eq_none] at h
  obtain ⟨⟨unset, unallocated⟩, unrefused⟩ := h
  obtain ⟨uninvoked, unregistered⟩ := setUps_of_isSetUp unset
  exact ⟨uninvoked, unregistered, by simp [allocations, unallocated],
    by simp [refusals, unrefused]⟩

theorem length_allocations (h : Enrolls barred trace) :
    trace.allocations.length = trace.invocations.length + trace.refusals.length := by
  induction h with
  | nil => rfl
  | @other e rest h _ ih =>
    obtain ⟨uninvoked, -, unallocated, unrefused⟩ := of_isEnrollment h
    rw [← List.singleton_append, allocations_append, invocations_append, refusals_append, uninvoked,
      unallocated, unrefused]
    exact ih
  | @refuse id rest session h _ ih => exact congrArg (· + 1) ih
  | @store id rest session name once target options valid _ ih =>
    change rest.allocations.length + 1 = rest.invocations.length + 1 + rest.refusals.length
    omega

theorem invalid_not_mem_registrations (h : Enrolls barred trace) :
    .invalid ∉ trace.registrations := by
  induction h with
  | nil => exact List.not_mem_nil
  | @other e rest h _ ih =>
    rw [← List.singleton_append, registrations_append, (of_isEnrollment h).2.1]
    exact ih
  | refuse session h _ ih => exact ih
  | store session name once target options valid _ ih =>
    rintro (_ | ⟨_, hrest⟩)
    · exact valid rfl
    · exact ih hrest

/-- If only the invalid id is refused, listeners are stored under all others. -/
theorem registrations_eq (h : Enrolls (· = .invalid) trace) :
    trace.registrations = (trace.allocations.map Prod.snd).filter (· ≠ .invalid) := by
  induction h with
  | nil => rfl
  | @other e rest h _ ih =>
    obtain ⟨-, unregistered, unallocated, -⟩ := of_isEnrollment h
    rw [← List.singleton_append, allocations_append, registrations_append, unregistered,
      unallocated]
    exact ih
  | @refuse id rest session h _ ih =>
    subst h
    exact ih
  | @store id rest session name once target options valid _ ih =>
    change id :: rest.registrations = (id :: rest.allocations.map Prod.snd).filter _
    rw [List.filter_cons_of_pos (by simpa using valid), ih]

theorem refusals_eq (h : Enrolls (· = .invalid) trace) :
    trace.refusals = (trace.allocations.map Prod.snd).filter (· = .invalid) := by
  induction h with
  | nil => rfl
  | @other e rest h _ ih =>
    obtain ⟨-, -, unallocated, unrefused⟩ := of_isEnrollment h
    rw [← List.singleton_append, allocations_append, refusals_append, unallocated, unrefused]
    exact ih
  | @refuse id rest session h _ ih =>
    subst h
    exact congrArg (ListenerId.invalid :: ·) ih
  | @store id rest session name once target options valid _ ih =>
    change rest.refusals = (id :: rest.allocations.map Prod.snd).filter _
    rw [List.filter_cons_of_neg (by simpa using valid), ih]

theorem of_received (h : Enrolls barred trace)
    (split : trace = before ++ .received (.id session id) :: after) :
    (barred id ∧ ∃ rest, after = .returned (.registered (.error (.invalidId id))) :: rest) ∨
      id ≠ .invalid ∧ ∃ name once target options rest,
        after = .published (.registered id name once) :: .asked (.invoke target options id) ::
          rest := by
  induction h generalizing before with
  | nil => simp at split
  | other h _ ih =>
    cases before with
    | nil =>
      cases split
      cases h
    | cons _ before => exact ih (List.cons.inj split).2
  | refuse session h _ ih =>
    match before with
    | [] =>
      cases split
      exact .inl ⟨h, _, rfl⟩
    | [_] => cases split
    | _ :: _ :: before => exact ih (List.cons.inj (List.cons.inj split).2).2
  | store session name once target options valid _ ih =>
    match before with
    | [] =>
      cases split
      exact .inr ⟨valid, name, once, target, options, _, rfl⟩
    | [_] | [_, _] => cases split
    | _ :: _ :: _ :: before =>
      exact ih (List.cons.inj (List.cons.inj (List.cons.inj split).2).2).2

theorem of_returned (h : Enrolls barred trace)
    (split : trace = before ++ .returned (.registered (.error (.invalidId id))) :: after) :
    barred id ∧ ∃ earlier session, before = earlier ++ [.received (.id session id)] := by
  induction h generalizing before with
  | nil => simp at split
  | @other e _ h _ ih =>
    cases before with
    | nil =>
      cases split
      cases h
    | cons _ before =>
      obtain ⟨hbarred, earlier, session, rfl⟩ := ih (List.cons.inj split).2
      exact ⟨hbarred, _ :: earlier, session, rfl⟩
  | refuse session h _ ih =>
    match before with
    | [] => cases split
    | [_] =>
      cases split
      exact ⟨h, [], session, rfl⟩
    | _ :: _ :: before =>
      obtain ⟨hbarred, earlier, session, rfl⟩ := ih (List.cons.inj (List.cons.inj split).2).2
      exact ⟨hbarred, _ :: _ :: earlier, session, rfl⟩
  | store session name once target options valid _ ih =>
    match before with
    | [] | [_] | [_, _] => cases split
    | _ :: _ :: _ :: before =>
      obtain ⟨hbarred, earlier, session, rfl⟩ :=
        ih (List.cons.inj (List.cons.inj (List.cons.inj split).2).2).2
      exact ⟨hbarred, _ :: _ :: _ :: earlier, session, rfl⟩

end Enrolls

end Trace

theorem Listener.isEnrollment_stopping {l : Listener} {waiting : Pending} {next : Signal}
    (h : next.effect.isEnrollment = false) :
    (Registry.stop l waiting next).effect.isEnrollment = false := by
  rcases Registry.stop_cases l waiting next with ⟨_, -, hstop⟩ | ⟨-, hstop⟩
  · rw [hstop]
    rfl
  · rwa [hstop]

theorem ListenRequest.isEnrollment_of_ofValue {request : Value} {e : ListenerError}
    (h : ofValue request = .error e) :
    (Effect.returned (.registered (.error e))).isEnrollment = false := by
  unfold ofValue at h
  split at h
  · cases h
    rfl
  · split at h <;> cases h <;> rfl

namespace Registry

variable {r : Registry} {cause : Cause} {t : Turn}

theorem Finishes.isEnrollment_eq {outcome : Outcome} (ends : r.Finishes cause outcome) :
    (Effect.returned outcome).isEnrollment = false := by
  cases ends with
  | malformed h => exact ListenRequest.isEnrollment_of_ofValue h
  | _ => rfl

theorem isEnrollment_delivery (r : Registry) (listener : Snapshot) (payload : HostValue) :
    (r.delivery listener payload).effect.isEnrollment = false := by
  rcases r.delivery_cases listener payload with ⟨_, hdone⟩ | ⟨_, _, -, -, hask⟩
  · rw [hdone]
    rfl
  · rw [hask]
    rfl

theorem isEnrollment_of_mem_effects (receipts : ∀ receipt ∈ t.receipts,
      (Effect.received receipt).isEnrollment = false)
    (events : t.events.filterMap LifecycleEvent.registered? = [])
    (signal : t.signal.effect.isEnrollment = false) :
    ∀ e ∈ t.effects, e.isEnrollment = false := by
  refine Turn.forall_effects receipts (fun event hevent => ?_) signal
  have unregistered := List.filterMap_eq_nil_iff.1 events event hevent
  simp [Effect.isEnrollment, Effect.isSetUp, Effect.invocation?, Effect.event?,
    Effect.allocation?, Effect.refusal?, unregistered]

/-- A turn refuses the id that it is given, stores a listener under it, or is given none. -/
theorem Course.enrollment_cases (course : Course r cause t) :
    (∃ p id ids, cause.Proposes p ∧ (id = .invalid ∨ r.contains id = true) ∧
      t = ({ r with ids }.refuse (.invalidId id)).receive (.id p.session id)) ∨
    (∃ session id name once target options, id ≠ .invalid ∧ r.contains id = false ∧
      t.effects = [.received (.id session id), .published (.registered id name once),
        .asked (.invoke target options id)]) ∨
    ∀ e ∈ t.effects, e.isEnrollment = false := by
  cases course with
  | @refuse _ p id ids given proposed barred => exact .inl ⟨p, id, ids, proposed, barred, rfl⟩
  | @store _ p id ids listeners target given vacant proposed valid =>
    refine .inr (.inl ⟨p.session, id, p.name, p.once, target, p.options, valid, ?_, rfl⟩)
    rw [← Bool.not_eq_true]
    intro taken
    have refused : r.listeners.insert? { p.subscription id with } = none :=
      Roster.insert?_eq_none_iff.2 taken
    cases refused.symm.trans vacant
  | finish outcome ends =>
    exact .inr (.inr (isEnrollment_of_mem_effects nofun rfl ends.isEnrollment_eq))
  | supply | supplyLate =>
    refine .inr (.inr (isEnrollment_of_mem_effects (fun receipt h => ?_) rfl rfl))
    rw [List.mem_singleton.1 h]
    rfl
  | reject e found =>
    exact .inr (.inr (isEnrollment_of_mem_effects nofun rfl (Listener.isEnrollment_stopping rfl)))
  | cancel found =>
    exact .inr (.inr (isEnrollment_of_mem_effects nofun rfl (Listener.isEnrollment_stopping rfl)))
  | tearDown report left =>
    refine .inr (.inr (isEnrollment_of_mem_effects ?_ (tearDown_registered ..) ?_))
    · rw [tearDown_receipts]
      nofun
    · rcases tearDown_signal r report left with ⟨_, hsignal⟩ | ⟨_, _, _, _, hsignal⟩
      · rw [hsignal]
        rfl
      · rw [hsignal]
        rfl
  | deliver payload found =>
    exact .inr (.inr (isEnrollment_of_mem_effects nofun rfl (isEnrollment_delivery ..)))
  | fire payload isFinal found =>
    exact .inr (.inr (isEnrollment_of_mem_effects nofun rfl
      (Listener.isEnrollment_stopping (isEnrollment_delivery ..))))
  | callBack listener payload =>
    exact .inr (.inr (isEnrollment_of_mem_effects nofun rfl (isEnrollment_delivery ..)))
  | fail listener e =>
    refine .inr (.inr (isEnrollment_of_mem_effects nofun rfl ?_))
    dsimp only [evaluated, publish]
    split <;> rfl
  | _ => exact .inr (.inr (isEnrollment_of_mem_effects nofun rfl rfl))

theorem Course.enrolls (course : Course r cause t) :
    Trace.Enrolls (fun id => id = .invalid ∨ r.contains id = true) t.effects := by
  rcases course.enrollment_cases with ⟨p, id, ids, -, barred, rfl⟩ |
    ⟨session, id, name, once, target, options, valid, -, stored⟩ | quiet
  · exact .refuse _ barred .nil
  · rw [stored]
    exact .store _ _ _ _ _ valid .nil
  · exact .of_forall quiet

end Registry

theorem Outcome.allocated_eq (outcome : Outcome) :
    outcome.allocated = outcome.invoked + (Trace.refusals [.returned outcome]).length := by
  match outcome with
  | .registered (.ok (.active _)) | .registered (.ok (.ignored _)) => rfl
  | .registered (.error e) => cases e <;> rfl
  | .cancelled _ | .tornDown _ | .delivered _ => rfl

theorem Trace.Flat.refusals_eq {trace : Trace} (flat : trace.Flat) : trace.refusals = [] := by
  rw [refusals, List.filterMap_eq_nil_iff]
  intro e he
  have := flat e he
  cases e with
  | returned outcome => cases this
  | _ => rfl

namespace Contract

/-- An operation itself is given as many ids as it should be at that stage: as many as it invokes
directives, and one more if it ends because of that id. -/
def allocating : Contract :=
  ofOwn (fun own waiting => own.allocations.length = waiting.invoked)
    fun own outcome => own.allocations.length = outcome.allocated

theorem due_allocated (signal : Signal) : due Pending.invoked Outcome.allocated signal =
    signal.invoked + (Trace.refusals [signal.effect]).length := by
  cases signal with
  | ask request waiting => rfl
  | done outcome => exact outcome.allocated_eq

theorem allocating_kept (start : Machine) : allocating.Kept start := by
  have additive (a b : Trace) : (a ++ b).allocations.length =
      a.allocations.length + b.allocations.length := by
    rw [Trace.allocations_append, List.length_append]
  have turns {r : Registry} {cause : Cause} {t : Turn} (course : r.Course cause t) :
      due Pending.invoked Outcome.allocated t.signal =
        cause.invoked + (Trace.allocations t.effects).length := by
    have hrefusals : Trace.refusals t.effects = Trace.refusals [t.signal.effect] := by
      rw [t.effects_eq, Trace.refusals_append, t.body_flat.refusals_eq, List.nil_append]
    rw [due_allocated, course.invoked_eq, course.enrolls.length_allocations, hrefusals,
      Nat.add_assoc]
  exact @counting_kept (fun trace => trace.allocations.length) Pending.invoked Outcome.allocated
    additive (fun _ => rfl) (fun _ => rfl) turns start

end Contract

namespace Machine

variable {start m : Machine} {moves : List Move} {trace : Trace}

theorem IsNew.enrolls_of_nodup (new : start.IsNew) (history : start.run moves = some (m, trace))
    (nodup : (trace.allocations.map Prod.snd).Nodup) : trace.Enrolls (· = .invalid) := by
  have inv := new.invariant (fun trace m => (∃ moves, start.run moves = some (m, trace)) ∧
    ((trace.allocations.map Prod.snd).Nodup → trace.Enrolls (· = .invalid))) history
    ⟨⟨[], rfl⟩, fun _ => .nil⟩ ?_
  · exact inv.2 nodup
  · intro before m move m' seen inv awaits hmove
    obtain ⟨⟨moves, history⟩, enrolls⟩ := inv
    refine ⟨⟨_, run_concat history hmove⟩, fun nodup => ?_⟩
    rw [Trace.allocations_append, List.map_append, List.nodup_append] at nodup
    refine (enrolls nodup.1).append ?_
    rcases awaits.step hmove with ⟨_, -, rfl⟩ | ⟨cause, others, t, -, course, -, rfl⟩
    · exact .nil
    · rw [cause.allocations_cons] at nodup
      have quiet : cause.effect.isEnrollment = false := by cases cause <;> rfl
      refine .other quiet (course.enrolls.mono fun id given barred => barred.resolve_right ?_)
      intro taken
      -- What is in use was registered, and so was given before.
      have earlier := (new.registrations_sublist history).subset (new.mem_registrations history taken)
      exact nodup.2.2 id earlier id given rfl

end Machine

end ScriptEvents
