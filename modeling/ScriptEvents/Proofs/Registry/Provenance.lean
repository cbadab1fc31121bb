import ScriptEvents.Proofs.Machine.Contract
import ScriptEvents.Proofs.Registry.Handles
/-!
Provenance: which operation it is that waits, and which registration a stored listener comes from.
A listener keeps the name, options, callback and once flag of its request as long as it is stored.
-/
namespace ScriptEvents

theorem ListenRequest.items_of_ofValue {request : Value} {parts : ListenRequest}
    (h : ofValue request = .ok parts) :
    request.isList = true ∧ request.items[0]? = some parts.name ∧
      parts.options = request.items[1]?.getD .nil ∧
      parts.callback = request.items[2]?.bind Value.procedure? := by
  unfold ofValue at h
  split at h
  · cases h
  next hlist =>
    have hlist : request.isList = true := by simpa using hlist
    split at h <;> cases h
    all_goals
      next hitems => simp [hlist, hitems, Value.procedure?]

def Pending.Serves (operation : Operation) : Pending → Prop
  | resolving p | allocating p _ => operation.Proposes p
  | settingUp s | stoppingLate s => ∃ p, operation.Proposes p ∧ s = p.subscription s.id
  | rejecting name _ => ∃ p, operation.Proposes p ∧ name = p.name
  | cancelling => ∃ id, operation = .cancel id
  | tearingDown .. => ∃ order, operation = .cancelAll order
  | firing listener payload => ∃ isFinal, operation = .dispatch listener.id payload isFinal
  | evaluating listener => ∃ payload isFinal, operation = .dispatch listener.id payload isFinal
  | recovering id => ∃ payload isFinal, operation = .dispatch id payload isFinal
  | handling => ∃ id payload isFinal, operation = .dispatch id payload isFinal

def Cause.Serves (operation : Operation) : Cause → Prop
  | call called => called = operation
  | reply waiting _ => waiting.Serves operation

theorem Cause.Proposes.of_serves {cause : Cause} {operation : Operation} {p : Proposal}
    (proposed : cause.Proposes p) (serves : cause.Serves operation) : operation.Proposes p := by
  cases proposed with
  | call h => exact serves ▸ h
  | resolving | allocating => exact serves

theorem Cause.TearsDown.of_serves {cause : Cause} {operation : Operation} {report : CancelReport}
    {left : List ListenerId} (reached : cause.TearsDown report left)
    (serves : cause.Serves operation) : ∃ order, operation = .cancelAll order := by
  cases reached with
  | call => exact ⟨_, serves.symm⟩
  | stopped | failed => exact serves

namespace Registry

theorem stop_serves {operation : Operation} {l : Listener} {waiting : Pending} {next : Signal}
    (h : waiting.Serves operation) (hnext : ∀ p ∈ next.pending, p.Serves operation) :
    ∀ p ∈ (stop l waiting next).pending, p.Serves operation := by
  intro p hp
  rcases mem_pending_stop hp with rfl | hp
  · exact h
  · exact hnext p hp

theorem delivery_serves {operation : Operation} (r : Registry) {listener : Snapshot}
    {payload : HostValue}
    (h : ∃ isFinal, operation = .dispatch listener.id payload isFinal) :
    ∀ p ∈ (r.delivery listener payload).pending, p.Serves operation := by
  intro p hp
  rw [mem_pending_delivery hp]
  exact ⟨payload, h⟩

theorem Course.serves {r : Registry} {cause : Cause} {t : Turn} (course : Course r cause t)
    {operation : Operation} (serves : cause.Serves operation) :
    ∀ p ∈ t.signal.pending, p.Serves operation := by
  have single {p q : Pending} (h : p.Serves operation) (hq : q ∈ [p]) : q.Serves operation :=
    List.mem_singleton.1 hq ▸ h
  have ended : ∀ q ∈ ([] : List Pending), q.Serves operation :=
    fun q hq => absurd hq List.not_mem_nil
  cases course with
  | finish | ignore | refuse | supply => exact ended
  | resolve _ p proposed | allocate p _ _ proposed =>
    exact fun q => single (proposed.of_serves serves)
  | @store _ p id ids listeners target given vacant proposed =>
    exact fun q => single ⟨p, proposed.of_serves serves, rfl⟩
  | supplyLate gone => exact fun q => single serves
  | reject e found =>
    obtain ⟨p, proposed, hs⟩ := serves
    exact stop_serves ⟨p, proposed, congrArg Subscription.name hs⟩ ended
  | cancel found => exact stop_serves ⟨_, serves.symm⟩ ended
  | tearDown report left reached =>
    intro q hq
    obtain ⟨_, _, _, rfl⟩ := mem_pending_tearDown hq
    exact reached.of_serves serves
  | handOver payload isFinal found handled => exact fun q => single ⟨_, _, _, serves.symm⟩
  | @deliver id l payload found alone stays =>
    have hid : l.snapshot.id = id := Roster.id_of_find? found
    exact delivery_serves r ⟨false, hid ▸ serves.symm⟩
  | @fire id l payload isFinal found alone last =>
    have hid : l.snapshot.id = id := Roster.id_of_find? found
    have hdispatch : ∃ isFinal, operation = .dispatch l.snapshot.id payload isFinal :=
      ⟨isFinal, hid ▸ serves.symm⟩
    exact stop_serves hdispatch (delivery_serves r hdispatch)
  | callBack listener payload result => exact delivery_serves r serves
  | fail listener e =>
    intro q hq
    rw [mem_pending_evaluated hq]
    exact serves

end Registry

namespace Contract

def serving : Contract := standing fun _ operation waiting => waiting.Serves operation

theorem serving_kept (start : Machine) : serving.Kept start where
  calls _ _ course := standing_meets (course.serves rfl)
  replies _ _ _ waits course := standing_meets (course.serves waits)
  nests _ _ waits _ := waits

end Contract

namespace Trace

theorem removals_removed (id : ListenerId) (reason : RemovalReason) (l : Listener) :
    removals (.published (.removed id reason) :: l.stopping) = [id] :=
  congrArg Ledger.removed (ledger_removed id reason l)

theorem registrations_removed (id : ListenerId) (reason : RemovalReason) (l : Listener) :
    registrations (.published (.removed id reason) :: l.stopping) = [] :=
  congrArg Ledger.registered (ledger_removed id reason l)

theorem registrations_dispatched (id : ListenerId) (isFinal : Bool) (trace : Trace) :
    registrations (.published (.dispatched id isFinal) :: trace) = trace.registrations := rfl

theorem removals_dispatched (id : ListenerId) (isFinal : Bool) (trace : Trace) :
    removals (.published (.dispatched id isFinal) :: trace) = trace.removals := rfl

/-- What is stored under the id after the trace was registered by this operation. -/
def RegisteredBy (trace : Trace) (id : ListenerId) (operation : Operation) : Prop :=
  ∃ before name once after, trace = before ++ .published (.registered id name once) :: after ∧
    InCharge before operation ∧ id ∉ registrations after ∧ id ∉ removals after

/-- The subscription is stored, as a registration has asked for it. -/
def Stems (trace : Trace) (s : Subscription) : Prop :=
  ∃ operation p, trace.RegisteredBy s.id operation ∧ operation.Proposes p ∧
    s = p.subscription s.id

theorem RegisteredBy.append {trace seen : Trace} {id : ListenerId} {operation : Operation}
    (h : trace.RegisteredBy id operation) (unregistered : id ∉ seen.registrations)
    (unremoved : id ∉ seen.removals) : RegisteredBy (trace ++ seen) id operation := by
  obtain ⟨before, name, once, after, rfl, charge, hregistrations, hremovals⟩ := h
  refine ⟨before, name, once, after ++ seen, by rw [List.append_assoc]; rfl, charge, ?_, ?_⟩
  · rw [registrations_append, List.mem_append, not_or]
    exact ⟨hregistrations, unregistered⟩
  · rw [removals_append, List.mem_append, not_or]
    exact ⟨hremovals, unremoved⟩

end Trace

namespace Registry

/-- A listener that no act has stored was there before, and only its handle may be new. -/
theorem Act.find?_cases {r s : Registry} {seen : Trace} (act : Act r seen s) {id : ListenerId}
    {l : Listener} (found : s.listeners.find? id = some l)
    (unregistered : id ∉ seen.registrations) :
    ∃ old, r.listeners.find? id = some old ∧ old.toSubscription = l.toSubscription ∧
      id ∉ seen.removals ∧ (id ∉ seen.supplies.map Prod.fst → old = l) := by
  cases act with
  | plain h =>
    have hnone : Trace.removals [_] = [] := congrArg Ledger.removed (Trace.ledger_of_isPlain h)
    exact ⟨l, found, rfl, by rw [hnone]; nofun, fun _ => rfl⟩
  | edit change =>
    rw [editDirectory_listeners] at found
    exact ⟨l, found, rfl, nofun, fun _ => rfl⟩
  | @store new roster target vacant bare =>
    rw [record_listeners, Roster.find?_insert? vacant, if_neg] at found
    · exact ⟨l, found, rfl, nofun, fun _ => rfl⟩
    · rintro rfl
      exact unregistered (List.mem_singleton.2 rfl)
  | @supply supplied stored =>
    rw [Roster.find?_attach] at found
    split at found
    next hid =>
      obtain ⟨old, hold, rfl⟩ := Option.map_eq_some_iff.1 found
      exact ⟨old, hold, rfl, nofun, fun h => absurd (List.mem_singleton.2 hid.symm) h⟩
    next => exact ⟨l, found, rfl, nofun, fun _ => rfl⟩
  | @remove gone removed reason stored unfired =>
    rw [record_listeners, remove_listeners, Roster.find?_erase] at found
    split at found
    · cases found
    next hne =>
      refine ⟨l, found, rfl, ?_, fun _ => rfl⟩
      rw [Trace.removals_removed, List.mem_singleton]
      exact Ne.symm hne
  | @fire gone removed isFinal stored alone last =>
    rw [record_listeners, record_listeners, remove_listeners, Roster.find?_erase] at found
    split at found
    · cases found
    next hne =>
      refine ⟨l, found, rfl, ?_, fun _ => rfl⟩
      rw [Trace.removals_dispatched, Trace.removals_removed, List.mem_singleton]
      exact Ne.symm hne
  | _ => exact ⟨l, found, rfl, nofun, fun _ => rfl⟩

theorem Acts.find?_cases {r s : Registry} {seen : Trace} (acts : Acts r seen s) {id : ListenerId}
    {l : Listener} (found : s.listeners.find? id = some l)
    (unregistered : id ∉ seen.registrations) :
    ∃ old, r.listeners.find? id = some old ∧ old.toSubscription = l.toSubscription ∧
      id ∉ seen.removals ∧ (id ∉ seen.supplies.map Prod.fst → old = l) := by
  induction acts with
  | nil => exact ⟨l, found, rfl, nofun, fun _ => rfl⟩
  | cons first _ ih =>
    rw [Trace.registrations_append, List.mem_append, not_or] at unregistered
    obtain ⟨middle, hmiddle, hsame, hlater, hkept⟩ := ih found unregistered.2
    obtain ⟨old, hold, hsame', hnow, hkept'⟩ := first.find?_cases hmiddle unregistered.1
    refine ⟨old, hold, hsame'.trans hsame, ?_, fun h => ?_⟩
    · rw [Trace.removals_append, List.mem_append, not_or]
      exact ⟨hnow, hlater⟩
    · rw [Trace.supplies_append, List.map_append, List.mem_append, not_or] at h
      exact (hkept' h.1).trans (hkept h.2)

theorem contains_iff {r : Registry} {id : ListenerId} :
    r.contains id = true ↔ id ∈ r.listeners.ids := by
  rw [← Bool.not_eq_false, contains_eq_false_iff, Roster.find?_eq_none_iff, not_not]

theorem contains_of_find? {r : Registry} {id : ListenerId} {l : Listener}
    (found : r.listeners.find? id = some l) : r.contains id = true := by
  simp [contains, Roster.contains, found]

/-- A listener that was registered is stored or was removed, and so often. -/
theorem Act.count_removals {r s : Registry} {seen : Trace} (act : Act r seen s) (id : ListenerId) :
    seen.removals.count id + (s.contains id).toNat =
      (r.contains id).toNat + seen.registrations.count id := by
  have removed {gone : ListenerId} {l : Listener} (found : r.listeners.find? gone = some l) :
      [gone].count id + ((r.remove gone).contains id).toNat = (r.contains id).toNat := by
    unfold contains Roster.contains
    rw [remove_listeners, Roster.find?_erase]
    by_cases hid : gone = id
    · subst hid
      simp [found]
    · simp [hid]
  cases act with
  | plain h =>
    have ledger := Trace.ledger_of_isPlain h
    have hremovals : Trace.removals [_] = [] := congrArg Ledger.removed ledger
    have hregistrations : Trace.registrations [_] = [] := congrArg Ledger.registered ledger
    rw [hremovals, hregistrations]
    exact Nat.add_comm ..
  | edit change =>
    unfold contains
    rw [editDirectory_listeners]
    exact Nat.add_comm ..
  | @store l listeners target vacant bare =>
    have absent : r.listeners.find? l.id = none := by
      by_contra h
      have taken := Roster.insert?_eq_none_iff.2 (Option.isSome_iff_ne_none.2 h)
      cases taken.symm.trans vacant
    change [].count id + _ = _ + [l.id].count id
    unfold contains Roster.contains
    rw [record_listeners, Roster.find?_insert? vacant]
    by_cases hid : l.id = id
    · subst hid
      simp [absent]
    · simp [hid]
  | @supply supplied stored =>
    unfold contains Roster.contains
    dsimp only
    rw [Roster.find?_attach]
    split
    · rw [Option.isSome_map]
      exact Nat.add_comm ..
    · exact Nat.add_comm ..
  | @remove l gone reason found unfired =>
    rw [Trace.removals_removed, Trace.registrations_removed]
    exact removed found
  | @fire l gone isFinal found alone last =>
    rw [Trace.removals_dispatched, Trace.removals_removed, Trace.registrations_dispatched,
      Trace.registrations_removed]
    exact removed found
  | _ => exact Nat.add_comm ..

theorem Acts.count_removals {r s : Registry} {seen : Trace} (acts : Acts r seen s)
    (id : ListenerId) : seen.removals.count id + (s.contains id).toNat =
      (r.contains id).toNat + seen.registrations.count id := by
  induction acts with
  | nil => exact Nat.add_comm ..
  | cons first _ ih =>
    have now := first.count_removals id
    rw [Trace.removals_append, Trace.registrations_append, List.count_append, List.count_append]
    omega

theorem Course.store_or_none {r : Registry} {cause : Cause} {t : Turn} (course : Course r cause t) :
    (∃ p id target ids listeners, cause.Proposes p ∧
      r.listeners.insert? { p.subscription id with } = some listeners ∧
      t = (({ r with ids, listeners }.publish [.registered id p.name p.once]
        (.ask (.invoke target p.options id) (.settingUp (p.subscription id)))).receive
          (.id p.session id))) ∨
      Trace.registrations t.effects = [] := by
  rw [registrations_effects]
  cases course with
  | @store _ p id ids listeners target given vacant proposed =>
    exact .inl ⟨p, id, target, ids, listeners, proposed, vacant, rfl⟩
  | tearDown report left => exact .inr (tearDown_registered ..)
  | _ => exact .inr rfl

end Registry

namespace Machine

variable {start m : Machine} {moves : List Move} {trace : Trace}

theorem IsNew.count_removals (new : start.IsNew) (history : start.run moves = some (m, trace))
    (id : ListenerId) :
    trace.removals.count id + (m.registry.contains id).toNat = trace.registrations.count id := by
  have h := (new.acts history).count_removals id
  have hnone : start.registry.contains id = false := by
    unfold Registry.contains
    rw [new.listeners]
    rfl
  rw [hnone] at h
  exact h.trans (Nat.zero_add _)

theorem IsNew.mem_registrations (new : start.IsNew) (history : start.run moves = some (m, trace))
    {id : ListenerId} (stored : m.registry.contains id = true) : id ∈ trace.registrations := by
  have h := new.count_removals history id
  rw [stored, Bool.toNat_true] at h
  exact List.count_pos_iff.1 (by omega)

theorem IsNew.inCharge (new : start.IsNew) (history : start.run moves = some (m, trace))
    {cause : Cause} {others : List Pending} (hpending : m.pending = cause.pending ++ others)
    {seen : Trace} (flat : seen.Flat) :
    ∃ operation, Trace.InCharge (trace ++ cause.effect :: seen) operation ∧
      cause.Serves operation := by
  cases cause with
  | call operation => exact ⟨operation, ⟨trace, seen, rfl, flat.balanced⟩, rfl⟩
  | reply waiting reply =>
    obtain ⟨before, operation, passed, rfl, balanced, waits⟩ :=
      new.waits (Contract.serving_kept start) history hpending
    refine ⟨operation, ⟨before, passed ++ .replied reply :: seen, ?_, ?_⟩, waits⟩
    · rw [List.append_assoc]
      rfl
    · exact balanced.append_flat (.append (.singleton rfl) flat)

/-- Every stored listener is as its registration has asked for it. -/
theorem IsNew.stems (new : start.IsNew) (history : start.run moves = some (m, trace))
    {id : ListenerId} {l : Listener} (found : m.registry.listeners.find? id = some l) :
    trace.Stems l.toSubscription := by
  have inv := new.invariant (fun trace m => (∃ moves, start.run moves = some (m, trace)) ∧
    ∀ id l, m.registry.listeners.find? id = some l → trace.Stems l.toSubscription) history ?_ ?_
  · exact inv.2 id l found
  · refine ⟨⟨[], rfl⟩, fun id l h => ?_⟩
    rw [new.listeners] at h
    cases h
  · intro before m move m' seen inv awaits hmove
    obtain ⟨⟨moves, history⟩, stems⟩ := inv
    refine ⟨⟨_, run_concat history hmove⟩, fun id l found => ?_⟩
    have hid : l.id = id := Roster.id_of_find? found
    -- What the move has not registered stems from before.
    have kept (unregistered : id ∉ Trace.registrations seen) :
        Trace.Stems (before ++ seen) l.toSubscription := by
      obtain ⟨old, hold, hsame, unremoved, -⟩ :=
        (awaits.acts hmove).find?_cases found unregistered
      obtain ⟨operation, p, registered, proposed, hs⟩ := stems id old hold
      rw [hsame] at registered hs
      exact ⟨operation, p, registered.append (hid ▸ unregistered) (hid ▸ unremoved), proposed, hs⟩
    rcases awaits.step hmove with ⟨_, -, rfl⟩ | ⟨cause, others, t, hpending, course, rfl, rfl⟩
    · exact kept List.not_mem_nil
    · rcases course.store_or_none with ⟨p, new', target, ids, listeners, proposed, vacant, rfl⟩ |
          hnone
      · by_cases hnew : new' = id
        · subst hnew
          have hfind : listeners.find? new' = some { p.subscription new' with } :=
            Roster.find?_insert?_self vacant
          cases hfind.symm.trans found
          have hflat : Trace.Flat [.received (.id p.session new')] := by
            simp [Trace.Flat, Effect.isFlat]
          obtain ⟨operation, charge, serves⟩ := new.inCharge history hpending hflat
          refine ⟨operation, p, ⟨_, p.name, p.once, [.asked (.invoke target p.options new')], ?_,
            charge, List.not_mem_nil, List.not_mem_nil⟩, proposed.of_serves serves, rfl⟩
          simp [Turn.effects, Turn.receive, Registry.publish, Proposal.subscription]
          rfl
        · refine kept ?_
          rw [cause.registrations_cons]
          exact fun h => hnew (List.mem_singleton.1 h).symm
      · refine kept ?_
        rw [cause.registrations_cons, hnone]
        exact List.not_mem_nil

end Machine

end ScriptEvents
