import ScriptEvents.Proofs.Registry.Completion
import ScriptEvents.Proofs.Registry.Enrollment
/-!
Identity: from its registration to its removal a listener is what its request has asked for, under a
valid id of its own. The registry sees to that, whatever ids its source gives: a registration that
gets an id which is not valid or in use fails, and changes nothing.
-/
namespace ScriptEvents

theorem ListenRequest.callback_of_ofValue {request : Value} {parts : ListenRequest}
    (h : ofValue request = .ok parts) :
    request.items[2]?.getD .nil = parts.callback.elim .nil .procedure := by
  unfold ofValue at h
  split at h
  · cases h
  · split at h <;> cases h
    all_goals
      next hitems => simp [hitems]

def Pending.isEarly : Pending → Bool
  | resolving _ | allocating .. => true
  | _ => false

theorem Pending.isEarly_of_isLate {waiting : Pending} (h : waiting.isLate = true) :
    waiting.isEarly = false := by
  cases waiting with
  | resolving | allocating => cases h
  | _ => rfl

theorem Cause.Proposes.isEarly {waiting : Pending} {reply : Reply} {p : Proposal}
    (proposed : Proposes (.reply waiting reply) p) : waiting.isEarly = true := by
  cases proposed <;> rfl

/-- What passes is about no listener's place, or is an id given. -/
def Effect.isIdle (e : Effect) : Bool := e.isPlain || e.allocation?.isSome

namespace Registry

variable {r s : Registry} {seen : Trace} {cause : Cause} {t : Turn}

theorem Act.eq_of_isIdle (act : Act r seen s) (idle : ∀ e ∈ seen, e.isIdle = true) :
    s.listeners = r.listeners ∧ s.stats = r.stats ∧ s.handles = r.handles := by
  cases act with
  | plain => exact ⟨rfl, rfl, rfl⟩
  | edit change => unfold editDirectory; split <;> exact ⟨rfl, rfl, rfl⟩
  | assign => exact ⟨rfl, rfl, rfl⟩
  | _ => cases idle _ List.mem_cons_self

theorem Acts.eq_of_isIdle (acts : Acts r seen s) (idle : ∀ e ∈ seen, e.isIdle = true) :
    s.listeners = r.listeners ∧ s.stats = r.stats ∧ s.handles = r.handles := by
  induction acts with
  | nil => exact ⟨rfl, rfl, rfl⟩
  | cons first _ ih =>
    rw [List.forall_mem_append] at idle
    obtain ⟨hlisteners, hstats, hhandles⟩ := first.eq_of_isIdle idle.1
    obtain ⟨hlisteners', hstats', hhandles'⟩ := ih idle.2
    exact ⟨hlisteners'.trans hlisteners, hstats'.trans hstats, hhandles'.trans hhandles⟩

theorem Course.of_isEarly (course : Course r cause t) {request : Request} {waiting : Pending}
    (asks : t.signal = .ask request waiting) (early : waiting.isEarly = true) :
    (∃ p, cause.Proposes p) ∧ t.body = [] ∧ (Effect.asked request).isPlain = true := by
  have late (h : t.signal.Late) : (∃ p, cause.Proposes p) ∧ t.body = [] ∧
      (Effect.asked request).isPlain = true := by
    have := Pending.isEarly_of_isLate (h waiting (by rw [asks]; exact List.mem_cons_self))
    cases early.symm.trans this
  cases course with
  | resolve name p proposed | allocate p target outside proposed =>
    cases asks
    exact ⟨⟨p, proposed⟩, rfl, rfl⟩
  | store | supplyLate | handOver =>
    cases asks
    cases early
  | reject e found => exact late (stop_late rfl (Signal.late_done _))
  | cancel found => exact late (stop_late rfl (Signal.late_done _))
  | tearDown report left => exact late (tearDown_late r report left)
  | deliver payload found => exact late (delivery_late r _ payload)
  | fire payload isFinal found => exact late (stop_late rfl (delivery_late r _ payload))
  | callBack listener payload => exact late (delivery_late r listener payload)
  | fail listener e => exact late (evaluated_late r listener e)
  | _ => cases asks

theorem Course.of_refused (course : Course r cause t) {id : ListenerId}
    (ends : t.signal = .done (.registered (.error (.invalidId id)))) :
    ∃ p, cause.Proposes p ∧ t.body = [.received (.id p.session id)] := by
  have last : .returned (.registered (.error (.invalidId id))) ∈ t.effects := by
    rw [t.effects_eq, ends]
    exact List.mem_append_right _ List.mem_cons_self
  rcases course.enrollment_cases with ⟨p, _, ids, proposed, -, rfl⟩ |
    ⟨_, _, _, _, _, _, -, -, stored⟩ | quiet
  · cases ends
    exact ⟨p, proposed, rfl⟩
  · rw [stored] at last
    simp at last
  · cases quiet _ last

theorem Course.of_barred (course : Course r cause t) {session : Option Session} {id : ListenerId}
    (given : .received (.id session id) ∈ t.effects)
    (barred : id = .invalid ∨ r.contains id = true) :
    t.effects = [.received (.id session id), .returned (.registered (.error (.invalidId id)))] ∧
      t.registry = { r with ids := t.registry.ids } := by
  rcases course.enrollment_cases with ⟨p, refused, ids, -, -, rfl⟩ |
    ⟨_, stored, _, _, _, _, valid, vacant, hstored⟩ | quiet
  · rcases List.mem_cons.1 given with hgiven | hlater
    · cases hgiven
      exact ⟨rfl, rfl⟩
    · cases List.mem_singleton.1 hlater
  · rw [hstored] at given
    rcases List.mem_cons.1 given with hgiven | hlater
    · cases hgiven
      rw [vacant] at barred
      exact absurd (barred.resolve_right Bool.false_ne_true) valid
    · simp at hlater
  · cases quiet _ given

end Registry

namespace Contract

/-- A registration that has no id yet has itself done nothing but ask and be answered. -/
def AsksOnly (own : Trace) (waiting : Pending) : Prop :=
  waiting.isEarly = true → ∀ e ∈ own, e.isPlain = true

def AskedOnly (own : Trace) (outcome : Outcome) : Prop :=
  ∀ id, outcome = .registered (.error (.invalidId id)) →
    ∃ early session, own = early ++ [.received (.id session id)] ∧ ∀ e ∈ early, e.isPlain = true

theorem asking_meets {r : Registry} {own : Trace} {cause : Cause} {t : Turn}
    (early : (∃ p, cause.Proposes p) → ∀ e ∈ own, e.isPlain = true) (course : r.Course cause t) :
    OwnMeets AsksOnly AskedOnly (own ++ t.body) t.signal := by
  cases hsignal : t.signal with
  | ask request waiting =>
    intro hwaiting
    obtain ⟨proposed, hbody, hplain⟩ := course.of_isEarly hsignal hwaiting
    rw [hbody, List.append_nil, List.forall_mem_append, List.forall_mem_singleton]
    exact ⟨early proposed, hplain⟩
  | done outcome =>
    rintro id rfl
    obtain ⟨p, proposed, hbody⟩ := course.of_refused hsignal
    exact ⟨own, p.session, by rw [hbody], early ⟨p, proposed⟩⟩

theorem asking_kept (start : Machine) : (ofOwn AsksOnly AskedOnly).Kept start := by
  refine ofOwn_kept (fun course => ?_) (fun {_ own _ reply _} waits course => ?_) start
  · exact @asking_meets _ [] _ _ (fun _ => nofun) course
  · rw [← List.singleton_append, ← List.append_assoc]
    refine asking_meets (fun ⟨p, proposed⟩ => ?_) course
    rw [List.forall_mem_append, List.forall_mem_singleton]
    exact ⟨waits proposed.isEarly, rfl⟩

end Contract

namespace Machine

variable {start m : Machine} {moves : List Move} {trace before after : Trace} {id : ListenerId}
  {name : String} {once : Bool}

theorem IsNew.invalid_not_mem_registrations (new : start.IsNew)
    (history : start.run moves = some (m, trace)) : .invalid ∉ trace.registrations := by
  refine new.invariant (fun trace _ => .invalid ∉ trace.registrations) history List.not_mem_nil ?_
  intro before m move m' seen inv awaits hmove
  rw [Trace.registrations_append, List.mem_append, not_or]
  refine ⟨inv, ?_⟩
  rcases awaits.step hmove with ⟨_, -, rfl⟩ | ⟨cause, others, t, -, course, -, rfl⟩
  · exact List.not_mem_nil
  · rw [cause.registrations_cons]
    exact course.enrolls.invalid_not_mem_registrations

/-- A listener that was registered and not removed since is stored as its request has asked. -/
theorem IsNew.find?_of_registered (new : start.IsNew)
    (history : start.run moves = some (m, trace))
    (split : trace = before ++ .published (.registered id name once) :: after)
    (unremoved : id ∉ Trace.removals after) :
    ∃ operation p l, before.InCharge operation ∧ operation.Proposes p ∧ p.name = name ∧
      p.once = once ∧ m.registry.listeners.find? id = some l ∧
      l.toSubscription = p.subscription id := by
  obtain ⟨target, options, rest, rfl⟩ := (new.acts history).prompt.asked_of_published split
  rw [← List.singleton_append, ← List.append_assoc] at split
  obtain ⟨first, last, n, _, earlier, operation, p, -, hfirst, hlast, -, hbefore, charge, proposed,
    -, stored⟩ := new.invokes history split
  obtain ⟨rfl, hevent⟩ := List.append_inj' hbefore rfl
  cases hevent
  have acts := (new.awaitsIdsOutside.run hfirst).1.run hlast |>.2
  have balance := acts.count_removals id
  have present : n.registry.contains id = true := by
    unfold Registry.contains Roster.contains
    rw [stored]
    rfl
  have unremoved : id ∉ Trace.removals rest := unremoved
  rw [List.count_eq_zero_of_not_mem unremoved, present, Bool.toNat_true] at balance
  have unregistered : id ∉ Trace.registrations rest := by
    have atMostOnce : (m.registry.contains id).toNat ≤ 1 := Bool.toNat_le _
    exact List.count_eq_zero.1 (by omega)
  have kept : m.registry.contains id = true := by
    by_contra absent
    rw [Bool.not_eq_true] at absent
    rw [absent, Bool.toNat_false] at balance
    omega
  obtain ⟨l, found⟩ := Option.isSome_iff_exists.1 kept
  obtain ⟨old, hold, hsame, -⟩ := acts.find?_cases found unregistered
  cases stored.symm.trans hold
  exact ⟨operation, p, l, charge, proposed, rfl, rfl, found, hsame.symm⟩

structure KeepsIdentities (m : Machine) (trace : Trace) : Prop where
  valid : m.registry.contains .invalid = false
  own (id : ListenerId) (l : Listener) : m.registry.listeners.find? id = some l → l.id = id
  registered (id : ListenerId) (l : Listener) : m.registry.listeners.find? id = some l →
    ∃ before name once after, trace = before ++ .published (.registered id name once) :: after ∧
      id ∉ Trace.removals after
  asRequested (before : Trace) (id : ListenerId) (name : String) (once : Bool) (after : Trace) :
    trace = before ++ .published (.registered id name once) :: after →
      id ∉ Trace.removals after →
        ∃ request session callback handle, before.InCharge (.register request session once) ∧
          request.isList = true ∧ request.items[0]?.bind Value.key? = some name ∧
          request.items[2]?.getD .nil = callback.elim .nil .procedure ∧
          m.registry.listeners.find? id = some
            { id, name, options := request.items[1]?.getD .nil, callback, once, handle }
  anyId (p : Proposal) (target : Directive) (others : List Pending) (id : ListenerId) :
    m.pending = .allocating p target :: others →
      ∃ m' seen, m.step (.reply (.allocated id)) = some (m', seen) ∧
        .received (.id p.session id) ∈ seen
  barred (move : Move) (m' : Machine) (seen : Trace) (session : Option Session)
      (id : ListenerId) :
    m.step move = some (m', seen) → .received (.id session id) ∈ seen →
      id = .invalid ∨ m.registry.contains id = true →
        seen.tail =
          [.received (.id session id), .returned (.registered (.error (.invalidId id)))] ∧
        m'.registry = { m.registry with ids := m'.registry.ids }
  refused (before : Trace) (operation : Operation) (passed : Trace) (id : ListenerId)
      (after : Trace) :
    trace = before ++ .called operation ::
        (passed ++ .returned (.registered (.error (.invalidId id))) :: after) →
      passed.Balanced → ∃ early session, passed.own = early ++ [.received (.id session id)] ∧
        ∀ e ∈ early, e.isPlain = true
  idle (move : Move) (m' : Machine) (seen : Trace) : m.step move = some (m', seen) →
    (∀ e ∈ seen, e.isIdle = true) → m'.registry.listeners = m.registry.listeners ∧
      m'.registry.stats = m.registry.stats ∧ m'.registry.handles = m.registry.handles

theorem listeners_keep_identities (new : start.IsNew)
    (history : start.run moves = some (m, trace)) : KeepsIdentities m trace := by
  have awaits := (new.awaitsIdsOutside.run history).1
  constructor
  case valid =>
    rw [← Bool.not_eq_true]
    exact fun stored =>
      new.invalid_not_mem_registrations history (new.mem_registrations history stored)
  case own => exact fun _ _ found => Roster.id_of_find? found
  case registered =>
    intro id l found
    have hid : l.id = id := Roster.id_of_find? found
    obtain ⟨_, _, ⟨before, name, once, after, split, -, -, unremoved⟩, -⟩ :=
      new.stems history found
    rw [hid] at split unremoved
    exact ⟨before, name, once, after, split, unremoved⟩
  case asRequested =>
    intro before id name once after split unremoved
    obtain ⟨operation, p, l, charge, proposed, rfl, rfl, found, asked⟩ :=
      new.find?_of_registered history split unremoved
    obtain @⟨request, session, once, parts, name, parsed, named⟩ := proposed
    obtain ⟨hlist, hname, hoptions, -⟩ := ListenRequest.items_of_ofValue parsed
    have hcallback := ListenRequest.callback_of_ofValue parsed
    refine ⟨request, session, parts.callback, l.handle, charge, hlist, ?_, hcallback, ?_⟩
    · rw [hname]
      exact named
    · rw [found, ← hoptions]
      obtain ⟨subscription, handle⟩ := l
      cases asked
      rfl
  case anyId =>
    intro p target others id hpending
    simp only [step, hpending, Registry.resume?, Option.map_some, finish]
    exact ⟨_, _, rfl, by simp [Registry.enroll, Turn.effects, Turn.receive]⟩
  case barred =>
    intro move m' seen session id hmove given barred
    rcases awaits.step hmove with ⟨_, -, rfl⟩ | ⟨cause, others, t, -, course, rfl, rfl⟩
    · cases given
    · refine course.of_barred ?_ barred
      rcases List.mem_cons.1 given with hcause | given
      · cases cause <;> cases hcause
      · exact given
  case refused =>
    intro before operation passed id after split balanced
    exact (new.contract (Contract.asking_kept start) history).2 _ _ _ _ _ split balanced id rfl
  case idle =>
    exact fun _ _ _ hmove => (awaits.acts hmove).eq_of_isIdle

/-- While a registration waits for an id, another takes that id, and a third is given none. -/
def contested : List Move :=
  [.call (.register (.ofList [.string "a"]) none false),
    .reply (.resolved (.ok (some (.directive ⟨0⟩)))),
    .call (.register (.ofList [.string "b", .nil, .procedure { handle := 1 }]) none true),
    .reply (.resolved (.ok (some (.directive ⟨1⟩)))),
    .reply (.allocated 7),
    .call (.register (.ofList [.string "c"]) none false),
    .reply (.resolved (.ok (some (.directive ⟨2⟩)))),
    .reply (.allocated .invalid),
    .reply (.setUp (.ok true)),
    .reply (.allocated 7)]

theorem listeners_keep_identities_contested : ∃ m trace, numbered.IsNew ∧
    numbered.run contested = some (m, trace) ∧ Trace.refusals trace = [.invalid, 7] ∧
    m.registry.listeners.find? 7 = some
      { id := 7, name := "b", options := .nil, callback := some { handle := 1 }, once := true,
        handle := some ⟨0⟩ } ∧ KeepsIdentities m trace := by
  have new : numbered.IsNew := ⟨rfl, rfl, rfl, rfl⟩
  have history : numbered.run contested = some (_, _) := rfl
  exact ⟨_, _, new, history, rfl, rfl, listeners_keep_identities new history⟩

end Machine

end ScriptEvents
