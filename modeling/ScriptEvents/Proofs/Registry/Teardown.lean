import ScriptEvents.Proofs.Registry.Provenance
/-!
Teardown: it goes through the listeners stored when it is called, while the handles that it runs may
register and remove whatever they like. Where ids come once, each of those listeners is removed
once, by the teardown or by an operation nested in it.
-/
namespace ScriptEvents

structure Cancellation where
  id : ListenerId
  stopped : Option (CancelHandle × Except DirectiveError Unit)

namespace Cancellation

def effects (c : Cancellation) : Trace :=
  .published (.removed c.id .teardown) ::
    match c.stopped with
    | some (handle, result) => [.asked (.stop handle), .replied (.stopped result)]
    | none => []

def failure? (c : Cancellation) : Option (ListenerId × DirectiveError) :=
  match c.stopped with
  | some (_, .error e) => some (c.id, e)
  | _ => none

def handle? (c : Cancellation) : Option CancelHandle := c.stopped.map Prod.fst

theorem log_effects (cancellations : List Cancellation) :
    Trace.log (cancellations.flatMap effects) =
      (cancellations.map id).map fun id => .removed id .teardown := by
  induction cancellations with
  | nil => rfl
  | cons c cancellations ih =>
    rw [List.flatMap_cons, Trace.log_append, ih]
    obtain ⟨id, _ | ⟨handle, result⟩⟩ := c <;> rfl

end Cancellation

namespace Trace

/-- The listener was torn down when it had been supplied this handle, or none. -/
def TornDown (trace : Trace) (id : ListenerId) (handle? : Option CancelHandle) : Prop :=
  ∃ before after, trace = before ++ .published (.removed id .teardown) :: after ∧
    ∀ handle, .received (.handle id handle) ∈ before ↔ handle? = some handle

theorem TornDown.append {trace : Trace} {id : ListenerId} {handle? : Option CancelHandle}
    (h : trace.TornDown id handle?) (more : Trace) : TornDown (trace ++ more) id handle? := by
  obtain ⟨before, after, rfl, held⟩ := h
  exact ⟨before, after ++ more, by rw [List.append_assoc]; rfl, held⟩

theorem nodup_registrations_of_append {before passed more : Trace} {e : Effect}
    (h : (registrations (before ++ e :: (passed ++ more))).Nodup) :
    (registrations (before ++ e :: passed)).Nodup := by
  rw [← List.cons_append, ← List.append_assoc, registrations_append] at h
  exact h.of_append_left

theorem count_removals (trace : Trace) (id : ListenerId) :
    trace.removals.count id = trace.own.removals.count id + trace.nested.removals.count id := by
  have h := (trace.own_append_nested_perm.filterMap Effect.event?).filterMap
    LifecycleEvent.removed?
  have hcount := h.count_eq id
  rw [List.filterMap_append, List.filterMap_append, List.count_append] at hcount
  exact hcount.symm

end Trace

/-- A teardown between two listeners: what has passed in all, and what of that is its own; the order
and what is left of it; the report; and what was cancelled. -/
structure Swept (sofar own : Trace) (order left : List ListenerId) (report : CancelReport)
    (cancellations : List Cancellation) : Prop where
  own_eq : own = cancellations.flatMap Cancellation.effects
  cancelled : report.cancelled = cancellations.map Cancellation.id
  failures : report.failures = cancellations.filterMap Cancellation.failure?
  known : ∀ id ∈ order, id ∈ sofar.registrations
  done : ∃ done, order = done ++ left ∧ report.cancelled.Sublist done ∧
    ∀ id ∈ done, id ∈ sofar.removals
  held : ∀ c ∈ cancellations, sofar.TornDown c.id c.handle?

namespace Swept

variable {sofar own : Trace} {order left : List ListenerId} {report : CancelReport}
  {cancellations : List Cancellation} {id : ListenerId}

theorem append (h : Swept sofar own order left report cancellations) (more : Trace) :
    Swept (sofar ++ more) own order left report cancellations where
  own_eq := h.own_eq
  cancelled := h.cancelled
  failures := h.failures
  known id hid := by
    rw [Trace.registrations_append]
    exact List.mem_append_left _ (h.known id hid)
  done := by
    obtain ⟨done, horder, hsub, hremoved⟩ := h.done
    refine ⟨done, horder, hsub, fun id hid => ?_⟩
    rw [Trace.removals_append]
    exact List.mem_append_left _ (hremoved id hid)
  held c hc := (h.held c hc).append more

theorem log_own (h : Swept sofar own order left report cancellations) :
    own.log = report.cancelled.map fun id => .removed id .teardown := by
  rw [h.own_eq, Cancellation.log_effects, h.cancelled]

theorem removals_own (h : Swept sofar own order left report cancellations) :
    own.removals = report.cancelled := by
  rw [Trace.removals, h.log_own]
  simp [List.filterMap_map, Function.comp_def, LifecycleEvent.removed?]

theorem through (h : Swept sofar own order [] report cancellations) :
    report.cancelled.Sublist order ∧ ∀ id ∈ order, id ∈ sofar.removals := by
  obtain ⟨done, horder, hsub, hremoved⟩ := h.done
  rw [List.append_nil] at horder
  subst horder
  exact ⟨hsub, hremoved⟩

theorem skip (h : Swept sofar own order (id :: left) report cancellations)
    (gone : id ∈ sofar.removals) : Swept sofar own order left report cancellations where
  own_eq := h.own_eq
  cancelled := h.cancelled
  failures := h.failures
  known := h.known
  done := by
    obtain ⟨done, horder, hsub, hremoved⟩ := h.done
    refine ⟨done ++ [id], by simp [horder], hsub.trans (List.sublist_append_left ..), ?_⟩
    exact List.forall_mem_append.2 ⟨hremoved, List.forall_mem_singleton.2 gone⟩
  held := h.held

theorem cancel {c : Cancellation} {report' : CancelReport}
    (h : Swept sofar own order (c.id :: left) report cancellations)
    (held : ∀ handle, .received (.handle c.id handle) ∈ sofar ↔ c.handle? = some handle)
    (cancelled : report'.cancelled = report.cancelled ++ [c.id])
    (failures : report'.failures = report.failures ++ c.failure?.toList) :
    Swept (sofar ++ [.published (.removed c.id .teardown)]) (own ++ c.effects) order left report'
      (cancellations ++ [c]) where
  own_eq := by simp [h.own_eq]
  cancelled := by simp [cancelled, h.cancelled]
  failures := by
    rw [failures, h.failures, List.filterMap_append]
    cases hfailure : c.failure? <;> simp [hfailure]
  known := (h.append _).known
  done := by
    obtain ⟨done, horder, hsub, hremoved⟩ :=
      (h.append [.published (.removed c.id .teardown)]).done
    rw [cancelled]
    refine ⟨done ++ [c.id], by simp [horder], hsub.append (.refl _), ?_⟩
    refine List.forall_mem_append.2 ⟨hremoved, List.forall_mem_singleton.2 ?_⟩
    rw [Trace.removals_append]
    exact List.mem_append_right _ List.mem_cons_self
  held other hother := by
    rcases List.mem_append.1 hother with hother | hother
    · exact (h.held other hother).append _
    · cases List.mem_singleton.1 hother
      exact ⟨sofar, [], rfl, held⟩

end Swept

/-- How a teardown stands after a turn: it is through, or it is between two listeners again
whatever the handle replies. -/
def Sweeps (sofar own : Trace) (order : List ListenerId) : Signal → Prop
  | .done outcome => ∃ report cancellations, outcome = .tornDown report ∧
      Swept sofar own order [] report cancellations
  | .ask request waiting => ∀ reply report left,
      Cause.TearsDown (.reply waiting reply) report left → ∃ cancellations,
        Swept sofar (own ++ [.asked request, .replied reply]) order left report cancellations

theorem Swept.sweeps {sofar own : Trace} {order left : List ListenerId} {report : CancelReport}
    {cancellations : List Cancellation} {r : Registry}
    (h : Swept sofar own order left report cancellations)
    (kept : Custody sofar.ledger r.listeners r.handles) :
    Sweeps (sofar ++ (r.tearDown report left).body) (own ++ (r.tearDown report left).body) order
      (r.tearDown report left).signal := by
  induction left generalizing sofar own report cancellations r with
  | nil =>
    have hbody : (r.tearDown report []).body = [] := rfl
    rw [hbody, List.append_nil, List.append_nil]
    exact ⟨report, cancellations, rfl, h⟩
  | cons id left ih =>
    unfold Registry.tearDown
    split
    next l found =>
      have held (handle : CancelHandle) :
          .received (.handle id handle) ∈ sofar ↔ l.handle = some handle :=
        Trace.mem_supplies.symm.trans (kept.mem_supplied_iff found)
      dsimp only
      split
      next handle hhandle =>
        rw [hhandle] at held
        have cancelled (result : Except DirectiveError Unit) {after : CancelReport} :
            after.cancelled = report.cancelled ++ [id] → after.failures = _ →
              Swept _ _ _ _ after _ :=
          h.cancel (c := ⟨id, some (handle, result)⟩) held
        intro reply after rest reached
        rw [List.append_assoc]
        cases reached with
        | stopped => exact ⟨_, cancelled (.ok ()) rfl (List.append_nil _).symm⟩
        | failed _ _ _ e => exact ⟨_, cancelled (.error e) rfl rfl⟩
      next hnone =>
        -- No handle has to run, so the same turn goes on with what is left.
        rw [hnone] at held
        have removed := kept.remove found
        rw [hnone] at removed
        have kept : Custody (Trace.ledger (sofar ++ [.published (.removed id .teardown)]))
            ((r.remove id).record (.removed id .teardown)).listeners r.handles := by
          rw [Trace.ledger_append]
          exact removed
        have cancelled : Swept _ _ _ _ { report with cancelled := report.cancelled ++ [id] } _ :=
          h.cancel (c := ⟨id, none⟩) held rfl (List.append_nil _).symm
        have sweeps := ih cancelled kept
        rw [List.append_assoc, List.append_assoc] at sweeps
        simpa [Turn.body, Cancellation.effects] using sweeps
    next gone =>
      -- A handle that ran before has had this listener removed.
      have known : id ∈ sofar.registrations := by
        obtain ⟨done, horder, -⟩ := h.done
        exact h.known id (by simp [horder])
      exact ih (h.skip (kept.departed id known gone)) kept

namespace Registry

variable {r : Registry} {cause : Cause} {t : Turn} {order : List ListenerId}

theorem Finishes.not_serves {outcome : Outcome} (ends : r.Finishes cause outcome) :
    ¬ cause.Serves (.cancelAll order) := by
  intro serves
  cases ends with
  | unresolved _ proposed | unknown proposed | uncallable proposed =>
    cases proposed.of_serves serves
  | setUp | stoppedLate | rejectedLate | rejected =>
    obtain ⟨_, proposed, -⟩ := serves
    cases proposed
  | cancelled => obtain ⟨_, h⟩ := serves; cases h
  | delivered | recovered | unrecovered => obtain ⟨_, _, h⟩ := serves; cases h
  | handled => obtain ⟨_, _, _, h⟩ := serves; cases h
  | _ => cases serves

theorem Course.tearDown_of_serves (course : Course r cause t)
    (serves : cause.Serves (.cancelAll order)) :
    ∃ report left, cause.TearsDown report left ∧ t = r.tearDown report left := by
  cases course with
  | tearDown report left reached => exact ⟨report, left, reached, rfl⟩
  | finish _ ends => exact absurd serves ends.not_serves
  | resolve _ _ proposed | allocate _ _ _ proposed | ignore _ proposed | refuse _ proposed
  | store _ _ _ proposed => cases proposed.of_serves serves
  | supply | supplyLate | reject =>
    obtain ⟨_, proposed, -⟩ := serves
    cases proposed
  | callBack => obtain ⟨_, h⟩ := serves; cases h
  | fail => obtain ⟨_, _, h⟩ := serves; cases h
  | _ => cases serves

end Registry

namespace Machine

theorem perm_of_mayCall {m : Machine} {order : List ListenerId}
    (allowed : m.mayCall (.cancelAll order) = true) : order.Perm m.registry.listeners.ids :=
  List.isPerm_iff.1 allowed

end Machine

namespace Contract

def sweeping : Contract where
  Waits before operation passed waiting := waiting.Serves operation ∧
    ∀ order, operation = .cancelAll order →
      (Trace.registrations (before ++ .called operation :: passed)).Nodup →
        ∀ reply report left, Cause.TearsDown (.reply waiting reply) report left →
          ∃ cancellations, Swept (before ++ .called operation :: passed)
            (passed.own ++ [.replied reply]) order left report cancellations
  Ends before operation passed outcome :=
    ∀ order, operation = .cancelAll order →
      (Trace.registrations (before ++ .called operation :: passed)).Nodup →
        ∃ report cancellations, outcome = .tornDown report ∧
          Swept (before ++ .called operation :: passed) passed.own order [] report cancellations

theorem sweeping_meets {before passed : Trace} {operation : Operation} {r : Registry}
    {cause : Cause} {t : Turn} (course : r.Course cause t) (serves : cause.Serves operation)
    (balanced : passed.Balanced)
    (h : ∀ order, operation = .cancelAll order →
      (Trace.registrations (before ++ .called operation :: passed)).Nodup →
        Custody (Trace.ledger (before ++ .called operation :: passed)) r.listeners r.handles ∧
        ∀ report left, cause.TearsDown report left → ∃ cancellations,
          Swept (before ++ .called operation :: passed) passed.own order left report
            cancellations) :
    sweeping.Meets before operation (passed ++ t.body) t.signal := by
  have sweeps (order : List ListenerId) (hoperation : operation = .cancelAll order)
      (nodup : (Trace.registrations (before ++ .called operation :: (passed ++ t.body))).Nodup) :
      Sweeps (before ++ .called operation :: (passed ++ t.body)) (passed ++ t.body).own order
        t.signal := by
    obtain ⟨kept, swept⟩ := h order hoperation (Trace.nodup_registrations_of_append nodup)
    rw [← List.cons_append, ← List.append_assoc]
    rw [Trace.own_append_flat balanced t.body_flat]
    subst hoperation
    obtain ⟨report, left, reached, rfl⟩ := course.tearDown_of_serves serves
    obtain ⟨cancellations, swept⟩ := swept report left reached
    exact swept.sweeps kept
  have balanced := balanced.append_flat t.body_flat
  cases hsignal : t.signal with
  | done outcome =>
    intro order hoperation nodup
    have := sweeps order hoperation nodup
    rwa [hsignal] at this
  | ask request waiting =>
    refine ⟨course.serves serves waiting (by rw [hsignal]; exact List.mem_singleton.2 rfl), ?_⟩
    intro order hoperation nodup reply report left reached
    have h := sweeps order hoperation (Trace.nodup_registrations_of_append nodup)
    rw [hsignal] at h
    obtain ⟨cancellations, swept⟩ := h reply report left reached
    rw [Trace.own_append_flat balanced (.singleton rfl)]
    exact ⟨cancellations, by simpa using swept.append [.asked request]⟩

theorem sweeping_kept {start : Machine} (new : start.IsNew) : sweeping.Kept start where
  calls {_ m before operation t} history allowed course := by
    have body : t.body = [] ++ t.body := rfl
    rw [body]
    refine sweeping_meets course rfl .nil fun order hoperation nodup => ?_
    rw [Trace.registrations_append] at nodup
    have kept := (new.custody_of_nodup history nodup.of_append_left).1
    refine ⟨Trace.custody_plain kept rfl, fun report left reached => ⟨[], ?_⟩⟩
    subst hoperation
    cases reached
    constructor
    case known =>
      intro id hid
      rw [Trace.registrations_append]
      refine List.mem_append_left _ (new.mem_registrations history ?_)
      exact Registry.contains_iff.2 ((Machine.perm_of_mayCall allowed).mem_iff.1 hid)
    case done => exact ⟨[], rfl, .refl _, nofun⟩
    case held => nofun
    all_goals rfl
  replies {_ m before passed operation waiting _ reply t} history _ balanced waits course := by
    have flat : Trace.Flat [.replied reply] := .singleton rfl
    rw [← List.singleton_append, ← List.append_assoc]
    refine sweeping_meets course waits.1 (balanced.append_flat flat)
      fun order hoperation nodup => ?_
    have nodup := Trace.nodup_registrations_of_append nodup
    have kept := (new.custody_of_nodup history nodup).1
    rw [← List.cons_append, ← List.append_assoc]
    refine ⟨Trace.custody_plain kept rfl, fun report left reached => ?_⟩
    obtain ⟨cancellations, swept⟩ := waits.2 order hoperation nodup reply report left reached
    rw [Trace.own_append_flat balanced flat]
    exact ⟨cancellations, swept.append _⟩
  nests {before passed inner operation other waiting outcome} hpassed hinner waits _ := by
    refine ⟨waits.1, fun order hoperation nodup reply report left reached => ?_⟩
    obtain ⟨cancellations, swept⟩ :=
      waits.2 order hoperation (Trace.nodup_registrations_of_append nodup) reply report left reached
    rw [← List.cons_append, ← List.append_assoc]
    rw [Trace.own_append_whole hpassed hinner]
    exact ⟨cancellations, swept.append _⟩

end Contract

namespace Machine

/-- What a teardown has done when it returns: `m` is the machine that it was called on, `m'` the one
that it leaves, `passed` what passed meanwhile. -/
structure Teardown (m m' : Machine) (before : Trace) (order : List ListenerId) (passed : Trace)
    (report : CancelReport) : Prop where
  empties (id : ListenerId) : m.registry.contains id = true → m'.registry.contains id = false
  nodup : report.cancelled.Nodup
  stored : ∀ id ∈ report.cancelled, m.registry.contains id = true
  published : passed.own.log = report.cancelled.map fun id => .removed id .teardown
  once (id : ListenerId) : m.registry.contains id = true → passed.removals.count id = 1
  reentrant (id : ListenerId) : m.registry.contains id = true →
    passed.nested.removals.count id = if id ∈ report.cancelled then 0 else 1
  keeps : ∀ id ∈ passed.registrations, id ∉ passed.nested.removals →
    m'.registry.contains id = true
  failures : ∃ cancellations : List Cancellation,
    passed.own = cancellations.flatMap Cancellation.effects ∧
    report.cancelled = cancellations.map Cancellation.id ∧
    report.failures = cancellations.filterMap Cancellation.failure? ∧
    ∀ c ∈ cancellations,
      Trace.TornDown (before ++ .called (.cancelAll order) :: passed) c.id c.handle?

variable {start m m' : Machine} {earlier inner : List Move} {before passed : Trace}
  {order : List ListenerId} {outcome : Outcome}

theorem mayCall_of_call {operation : Operation} {result : Machine × Trace}
    (h : m.step (.call operation) = some result) : m.mayCall operation = true := by
  simp only [step] at h
  split at h
  next allowed => exact allowed
  next => cases h

theorem IsNew.swept {moves : List Move} (new : start.IsNew)
    (history : start.run moves =
      some (m', before ++ .called (.cancelAll order) :: (passed ++ [.returned outcome])))
    (balanced : passed.Balanced)
    (nodup : (Trace.registrations
      (before ++ .called (.cancelAll order) :: (passed ++ [.returned outcome]))).Nodup) :
    ∃ report cancellations, outcome = .tornDown report ∧
      Swept (before ++ .called (.cancelAll order) :: passed) passed.own order [] report
        cancellations := by
  have fulfilled := (new.contract (Contract.sweeping_kept new) history).2
  exact fulfilled before (.cancelAll order) passed outcome [] rfl balanced order rfl
    (Trace.nodup_registrations_of_append nodup)

theorem IsNew.count_removals_of_call {operation : Operation} (new : start.IsNew)
    (known : start.run earlier = some (m, before))
    (history : m.run inner = some (m', .called operation :: (passed ++ [.returned outcome])))
    (nodup : (Trace.registrations
      (before ++ .called operation :: (passed ++ [.returned outcome]))).Nodup) (id : ListenerId) :
    before.removals.count id + (m.registry.contains id).toNat + passed.registrations.count id ≤ 1 ∧
      passed.removals.count id + (m'.registry.contains id).toNat =
        (m.registry.contains id).toNat + passed.registrations.count id := by
  have earlier := new.count_removals known id
  have later := ((new.awaitsIdsOutside.run known).1.run history).2.count_removals id
  have once := List.nodup_iff_count_le_one.1 nodup id
  have hregistrations : Trace.registrations (.called operation :: (passed ++ [.returned outcome])) =
      passed.registrations := (Trace.registrations_append passed _).trans (List.append_nil _)
  have hremovals : Trace.removals (.called operation :: (passed ++ [.returned outcome])) =
      passed.removals := (Trace.removals_append passed _).trans (List.append_nil _)
  rw [Trace.registrations_append, hregistrations, List.count_append] at once
  rw [hregistrations, hremovals] at later
  omega

theorem tears_down_each_listener_once (new : start.IsNew)
    (known : start.run earlier = some (m, before))
    (history : m.run (.call (.cancelAll order) :: inner) =
      some (m', .called (.cancelAll order) :: (passed ++ [.returned outcome])))
    (balanced : passed.Balanced)
    (fresh : start.registry.ids.NeverRepeats (Trace.allocations
      (before ++ .called (.cancelAll order) :: (passed ++ [.returned outcome])))) :
    ∃ report, outcome = .tornDown report ∧ Teardown m m' before order passed report := by
  have whole := run_append_eq_some.2 ⟨m, before, _, known, history, rfl⟩
  have nodup := new.registrations_nodup whole fresh
  have counts := new.count_removals_of_call known history nodup
  have perm : order.Perm m.registry.listeners.ids := by
    obtain ⟨_, _, _, hcall, -⟩ := run_cons_eq_some.1 history
    exact perm_of_mayCall (mayCall_of_call hcall)
  have hstored (id : ListenerId) : m.registry.contains id = true ↔ id ∈ order :=
    Registry.contains_iff.trans perm.mem_iff.symm
  obtain ⟨report, cancellations, rfl, swept⟩ := new.swept whole balanced nodup
  obtain ⟨hsub, hremoved⟩ := swept.through
  have hnodup : report.cancelled.Nodup :=
    (perm.nodup_iff.2 m.registry.listeners.distinct).sublist hsub
  -- Whatever is in the order has been removed, and not before the call.
  have once (id : ListenerId) (h : m.registry.contains id = true) :
      passed.removals.count id = 1 ∧ m'.registry.contains id = false := by
    have hcount := counts id
    have hmem := List.count_pos_iff.2 (hremoved id ((hstored id).1 h))
    have hremovals : Trace.removals (before ++ .called (.cancelAll order) :: passed) =
        before.removals ++ passed.removals := Trace.removals_append ..
    rw [hremovals, List.count_append] at hmem
    rw [h, Bool.toNat_true] at hcount
    exact ⟨by omega, Bool.toNat_eq_zero.1 (by omega)⟩
  have nested (id : ListenerId) : passed.removals.count id =
      report.cancelled.count id + passed.nested.removals.count id :=
    swept.removals_own ▸ passed.count_removals id
  refine ⟨report, rfl, ?_⟩
  constructor
  case empties => exact fun id h => (once id h).2
  case nodup => exact hnodup
  case stored => exact fun id h => (hstored id).2 (hsub.mem h)
  case published => exact swept.log_own
  case once => exact fun id h => (once id h).1
  case reentrant =>
    intro id h
    have hcount := nested id
    rw [(once id h).1] at hcount
    split
    next hmem =>
      rw [List.count_eq_one_of_mem hnodup hmem] at hcount
      omega
    next hmem =>
      rw [List.count_eq_zero.2 hmem] at hcount
      omega
  case keeps =>
    intro id hregistered hkept
    have hcount := counts id
    have hpos := List.count_pos_iff.2 hregistered
    have habsent : id ∉ report.cancelled := by
      intro hmem
      rw [(hstored id).2 (hsub.mem hmem), Bool.toNat_true] at hcount
      omega
    have hnone := nested id
    rw [List.count_eq_zero.2 habsent, List.count_eq_zero.2 hkept] at hnone
    exact Bool.toNat_eq_one.1 (by omega)
  case failures =>
    exact ⟨cancellations, swept.own_eq, swept.cancelled, swept.failures, swept.held⟩

def threeListeners : List Move :=
  [.call (.register (.ofList [.string "tick"]) none false),
    .reply (.resolved (.ok (some (.directive ⟨0⟩)))),
    .reply (.setUp (.ok true)),
    .call (.register (.ofList [.string "tick"]) none false),
    .reply (.resolved (.ok (some (.directive ⟨0⟩)))),
    .reply (.setUp (.ok true)),
    .call (.register (.ofList [.string "tick"]) none false),
    .reply (.resolved (.ok (some (.directive ⟨0⟩)))),
    .reply (.setUp (.ok false))]

/-- The first handle cancels the second listener, registers a fourth and fails. -/
def meddling : List Move :=
  [.call (.cancel 8),
    .reply (.stopped (.ok ())),
    .call (.register (.ofList [.string "tick"]) none false),
    .reply (.resolved (.ok (some (.directive ⟨0⟩)))),
    .reply (.setUp (.ok false)),
    .reply (.stopped (.error (.cancel "busy")))]

def meddlingTrace : Trace :=
  [.published (.removed 7 .teardown),
    .asked (.stop ⟨0⟩),
    .called (.cancel 8),
    .published (.removed 8 .cancelled),
    .asked (.stop ⟨1⟩),
    .replied (.stopped (.ok ())),
    .returned (.cancelled true),
    .called (.register (.ofList [.string "tick"]) none false),
    .asked (.resolve (.string "tick")),
    .replied (.resolved (.ok (some (.directive ⟨0⟩)))),
    .received (.id none 10),
    .published (.registered 10 "tick" false),
    .asked (.invoke ⟨0⟩ .nil 10),
    .replied (.setUp (.ok false)),
    .returned (.registered (.ok (.active
      { id := 10, name := "tick", options := .nil, callback := none, once := false,
        cancellable := false }))),
    .replied (.stopped (.error (.cancel "busy"))),
    .published (.removed 9 .teardown)]

theorem tears_down_each_listener_once_meddling : ∃ m m' before outcome,
    counting.IsNew ∧ counting.run threeListeners = some (m, before) ∧
    m.run (.call (.cancelAll [7, 8, 9]) :: meddling) =
      some (m', .called (.cancelAll [7, 8, 9]) :: (meddlingTrace ++ [.returned outcome])) ∧
    meddlingTrace.Balanced ∧
    counting.registry.ids.NeverRepeats (Trace.allocations
      (before ++ .called (.cancelAll [7, 8, 9]) :: (meddlingTrace ++ [.returned outcome]))) ∧
    ∃ report, outcome = .tornDown report ∧
      Teardown m m' before [7, 8, 9] meddlingTrace report := by
  have runs : ∃ m before m', counting.run threeListeners = some (m, before) ∧
      m.run (.call (.cancelAll [7, 8, 9]) :: meddling) =
        some (m', .called (.cancelAll [7, 8, 9]) :: (meddlingTrace ++ [.returned (.tornDown
          { cancelled := [7, 9], failures := [(7, .cancel "busy")] })])) ∧
      Trace.allocations before = [(none, 7), (none, 8), (none, 9)] := ⟨_, _, _, rfl, rfl, rfl⟩
  obtain ⟨m, before, m', known, history, allocations⟩ := runs
  have balanced : meddlingTrace.Balanced := rfl
  have fresh : counting.registry.ids.NeverRepeats (Trace.allocations
      (before ++ .called (.cancelAll [7, 8, 9]) :: (meddlingTrace ++ [.returned (.tornDown
        { cancelled := [7, 9], failures := [(7, .cancel "busy")] })]))) := by
    rw [Trace.allocations_append, allocations]
    show [(none, 7), (none, 8), (none, 9), (none, 10)].length ≤ UInt64.size
    decide
  exact ⟨m, m', before, _, counting_isNew, known, history, balanced, fresh,
    tears_down_each_listener_once counting_isNew known history balanced fresh⟩

end Machine

end ScriptEvents
