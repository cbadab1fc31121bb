import ScriptEvents.Proofs.Registry.Completion
import ScriptEvents.Proofs.Registry.Handover
/-!
Conclusion: what a registration returns once its directive has returned, and what it leaves. Where
no id is given twice, the listener of its id is still the one that it has stored, or that is gone
for good, whatever was nested in the directive and in the handle that it supplied.
-/
namespace ScriptEvents

theorem Registry.isCancellable_of_not_contains {r : Registry} {id : ListenerId}
    (gone : r.contains id = false) : r.isCancellable id = false := by
  simp [isCancellable, contains_eq_false_iff.1 gone]

namespace Trace

structure Stores (trace : Trace) (request : Value) (session : Option Session) (s : Subscription) :
    Prop where
  charge : trace.InCharge (.register request session s.once)
  stored : ∃ earlier, trace = earlier ++
    [.received (.id session s.id), .published (.registered s.id s.name s.once)]
  isList : request.isList = true
  name : request.items[0]?.bind Value.key? = some s.name
  options : s.options = request.items[1]?.getD .nil
  callback : s.callback = request.items[2]?.bind Value.procedure?

/-- The trace ends with the return of its innermost operation. -/
def Returns (trace : Trace) (operation : Operation) (outcome : Outcome) : Prop :=
  ∃ earlier : Trace, trace = earlier ++ [.returned outcome] ∧ earlier.InCharge operation

theorem InCharge.returns {trace passed : Trace} {operation : Operation}
    (charge : trace.InCharge operation) (balanced : passed.Balanced) (outcome : Outcome) :
    Returns (trace ++ (passed ++ [.returned outcome])) operation outcome :=
  ⟨trace ++ passed, (List.append_assoc ..).symm, charge.append balanced⟩

end Trace

namespace Machine

variable {start m n : Machine} {moves : List Move} {trace before during : Trace} {id : ListenerId}
  {target : Directive} {options : Value}

theorem not_mem_setupFailed_of_idle (idle : n.pending = [])
    (history : n.run moves = some (m, during)) (unregistered : id ∉ during.registrations) :
    .published (.removed id .setupFailed) ∉ during := by
  intro hmem
  obtain ⟨_, _, split⟩ := List.append_of_mem hmem
  have awaits := awaitsIdsOutside_of_idle idle
  obtain @⟨_, _, _, k, seen, _, _, _, cause, others, t, -, hfirst, -, waited, course, inside,
    rfl, -, -⟩ := awaits.turnHolds history split
  obtain ⟨_, _, -, -, -, hevent⟩ := Turn.split_published inside
  rcases course.removed_cases hevent (by decide) with ⟨-, h⟩ | ⟨_, _, -, h⟩ | ⟨s, e, rfl, rfl, -⟩
  · cases h
  · cases h
  · -- The set-up that fails is awaited, so it was registered before.
    have awaited := (setsUpOnce_of_idle idle).run awaits hfirst s.id
    have absent : s.id ∉ seen.registrations := by
      intro h
      simp [split, h] at unregistered
    simp [waited, Cause.pending, Pending.settingUp?, List.count_eq_zero.2 absent] at awaited

theorem IsNew.count_of_removed (new : start.IsNew) (history : start.run moves = some (m, trace))
    (fresh : start.registry.ids.NeverRepeats trace.allocations) (removed : id ∈ trace.removals) :
    trace.registrations.count id = 1 ∧ trace.removals.count id = 1 ∧
      m.registry.contains id = false := by
  have counts := new.count_removals history id
  have once := List.nodup_iff_count_le_one.1 (new.registrations_nodup history fresh) id
  have some := List.count_pos_iff.2 removed
  refine ⟨by omega, by omega, ?_⟩
  rw [← Bool.toNat_eq_zero]
  omega

structure AtReturn (m : Machine) (before during : Trace) (request : Value)
    (session : Option Session) (s : Subscription) (others : List Pending) : Prop where
  stores : before.Stores request session s
  waits : m.pending = .settingUp s :: others
  own : ∀ l, m.registry.listeners.find? s.id = some l → l = { s with handle := none }
  unremoved : s.id ∉ before.removals
  gone_iff : m.registry.contains s.id = false ↔ s.id ∈ during.removals
  unfailed : .published (.removed s.id .setupFailed) ∉ during

theorem IsNew.atReturn (new : start.IsNew)
    (history : start.run moves = some (m, before ++ .asked (.invoke target options id) :: during))
    (balanced : during.Balanced) (inside : during.own = [])
    (fresh : start.registry.ids.NeverRepeats
      (Trace.allocations (before ++ .asked (.invoke target options id) :: during))) :
    ∃ request session s others, s.id = id ∧ AtReturn m before during request session s others := by
  obtain ⟨first, rest, n, others, earlier, operation, p, -, hfirst, hrest, waits, hbefore, charge,
    proposed, -, stored⟩ := new.stores history rfl
  obtain ⟨hpending, hidle⟩ := run_inside hrest balanced inside
  have awaits := (new.awaitsIdsOutside.run hfirst).1
  -- The id is registered once in all, and not removed before it is stored.
  have once : (before.registrations ++ during.registrations).count id ≤ 1 := by
    have nodup := new.registrations_nodup history fresh
    rw [Trace.registrations_append] at nodup
    exact List.nodup_iff_count_le_one.1 nodup id
  have first := new.count_removals hfirst id
  have later := (awaits.run hrest).2.count_removals id
  have contained := Registry.contains_of_find? stored
  rw [Trace.removals_append, Trace.registrations_append, contained] at first
  rw [contained] at later
  simp only [List.count_append, Bool.toNat_true] at once first later
  have unasked : (Trace.removals [.asked (.invoke target options id)]).count id = 0 := rfl
  have unasked' : (Trace.registrations [.asked (.invoke target options id)]).count id = 0 := rfl
  have unregistered : id ∉ during.registrations := List.count_eq_zero.1 (by omega)
  have unremoved : id ∉ before.removals := List.count_eq_zero.1 (by omega)
  have gone_iff : m.registry.contains id = false ↔ id ∈ during.removals := by
    rw [← List.count_pos_iff, ← Bool.toNat_eq_zero]
    omega
  obtain @⟨request, session, once, parts, name, parsed, named⟩ := proposed
  obtain ⟨hlist, hname, hoptions, hcallback⟩ := ListenRequest.items_of_ofValue parsed
  refine ⟨request, session, _, others, rfl, ?_, hpending.trans waits, fun l found => ?_, unremoved,
    gone_iff, not_mem_setupFailed_of_idle rfl hidle unregistered⟩
  · refine ⟨?_, ⟨earlier, hbefore⟩, hlist, ?_, hoptions, hcallback⟩
    · rw [hbefore]
      exact charge.append (Trace.Flat.balanced (by simp [Trace.Flat, Effect.isFlat]))
    · rw [hname]
      exact named
  · exact awaits.eq_of_inside hrest balanced inside unregistered stored found

/-- What a registration leaves whose directive has failed: `during` has passed while the directive
was at work, `removal` when it was over, and `whole` in all. -/
structure LeavesNothing (start m m' : Machine) (s : Subscription) (during removal whole : Trace) :
    Prop where
  gone : m'.registry.contains s.id = false
  forGood (moves : List Move) (n : Machine) (later : Trace) : m'.run moves = some (n, later) →
    start.registry.ids.NeverRepeats (Trace.allocations (whole ++ later)) →
      n.registry.contains s.id = false
  registered : whole.registrations.count s.id = 1
  removed : whole.removals.count s.id = 1
  removal_eq : removal =
    if s.id ∈ during.removals then [] else [.published (.removed s.id .setupFailed)]
  failed : .published (.removed s.id .setupFailed) ∈ whole ↔ s.id ∉ during.removals
  others (id : ListenerId) : m'.registry.listeners.find? id =
    if s.id = id then none else m.registry.listeners.find? id
  unstopped (handle : CancelHandle) : .asked (.stop handle) ∉ removal

variable {request : Value} {session : Option Session} {s : Subscription} {others : List Pending}

theorem AtReturn.step_setUp (h : AtReturn m before during request session s others)
    (result : Except DirectiveError Bool) : m.step (.reply (.setUp result)) =
      some ({ registry := (m.registry.setUp s result).registry
              pending := (m.registry.setUp s result).signal.pending ++ others },
        .replied (.setUp result) :: (m.registry.setUp s result).effects) := by
  simp only [step, h.waits, Registry.resume?, Option.map_some]
  rfl

theorem AtReturn.rejected (h : AtReturn m before during request session s others)
    (e : DirectiveError) :
    ∃ m' removal, m.step (.reply (.setUp (.error e))) = some (m', .replied (.setUp (.error e)) ::
        (removal ++ [.returned (.registered (.error (.directive s.name e)))])) ∧
      m'.pending = others ∧
      removal = (if s.id ∈ during.removals then [] else
        [.published (.removed s.id .setupFailed)]) ∧
      ∀ id, m'.registry.listeners.find? id =
        if s.id = id then none else m.registry.listeners.find? id := by
  have completes := completes_setUp (.error e) h.own
  generalize hseen : (Effect.replied (.setUp (.error e)) ::
    (m.registry.setUp s (.error e)).effects) = seen at completes
  rw [h.step_setUp]
  cases completes with
  | rejected _ stored removed =>
    have kept : s.id ∉ during.removals := by
      rw [← h.gone_iff, Registry.contains_eq_false_iff, stored]
      nofun
    have effects := (List.cons.inj hseen).2
    rw [Turn.pending_of_returned (by rw [effects]; rfl), effects]
    exact ⟨_, [.published (.removed s.id .setupFailed)], rfl, rfl, (if_neg kept).symm, removed⟩
  | rejectedLate _ gone same =>
    have removed : s.id ∈ during.removals := by
      rw [← h.gone_iff, Registry.contains_eq_false_iff, gone]
    have effects := (List.cons.inj hseen).2
    rw [Turn.pending_of_returned (by rw [effects]; rfl), effects]
    refine ⟨_, [], rfl, rfl, (if_pos removed).symm, fun id => ?_⟩
    rw [same]
    split
    next hid => rw [← hid, gone]
    next => rfl

theorem AtReturn.inCharge (h : AtReturn m before during request session s others)
    (balanced : during.Balanced) :
    Trace.InCharge (before ++ .asked (.invoke target options id) :: during)
      (.register request session s.once) :=
  h.stores.charge.append ((Trace.closes_cons rfl 0 during).trans balanced)

theorem AtReturn.not_failed (h : AtReturn m before during request session s others) :
    .published (.removed s.id .setupFailed) ∉
      before ++ .asked (.invoke target options id) :: during := by
  intro failed
  rcases List.mem_append.1 failed with earlier | later
  · exact h.unremoved (Trace.mem_removals.2 ⟨_, earlier⟩)
  · exact h.unfailed (by simpa using later)

theorem parts_of_failed {removal ended : Trace} {e : DirectiveError}
    (hremoval : removal =
      if s.id ∈ during.removals then [] else [.published (.removed s.id .setupFailed)])
    (hended : ended = .replied (.setUp (.error e)) ::
      (removal ++ [.returned (.registered (.error (.directive s.name e)))])) :
    ended.allocations = [] ∧
      ended.removals = (if s.id ∈ during.removals then [] else [s.id]) ∧
      (.published (.removed s.id .setupFailed) ∈ ended ↔ s.id ∉ during.removals) := by
  subst hended hremoval
  split
  next already => exact ⟨rfl, rfl, by simp [already]⟩
  next kept => exact ⟨rfl, rfl, by simp [kept]⟩

inductive FailsSetUp (start m : Machine) (before during : Trace) (asked : Request)
    (id : ListenerId) (e : DirectiveError) : Prop where
  | intro {request : Value} {session : Option Session} {s : Subscription} {others : List Pending}
      {m' : Machine} {removal whole : Trace} (own : s.id = id)
      (stores : before.Stores request session s) (waits : m.pending = .settingUp s :: others)
      (fails : m.step (.reply (.setUp (.error e))) = some (m', .replied (.setUp (.error e)) ::
        (removal ++ [.returned (.registered (.error (.directive s.name e)))])))
      (ended : m'.pending = others)
      (passed : whole = before ++ .asked asked :: during ++ .replied (.setUp (.error e)) ::
        (removal ++ [.returned (.registered (.error (.directive s.name e)))]))
      (returned : whole.Returns (.register request session s.once)
        (.registered (.error (.directive s.name e))))
      (left : LeavesNothing start m m' s during removal whole) :
      FailsSetUp start m before during asked id e

/-- A registration whose directive fails, whatever that has done before, fails with its error. Its
listener is removed then, unless it was before, and no other is; no handle runs. -/
theorem failed_set_up_leaves_nothing (new : start.IsNew)
    (history : start.run moves = some (m, before ++ .asked (.invoke target options id) :: during))
    (balanced : during.Balanced) (inside : during.own = [])
    (fresh : start.registry.ids.NeverRepeats
      (Trace.allocations (before ++ .asked (.invoke target options id) :: during)))
    (e : DirectiveError) :
    FailsSetUp start m before during (.invoke target options id) id e := by
  obtain ⟨request, session, s, others, rfl, h⟩ := new.atReturn history balanced inside fresh
  obtain ⟨m', removal, hstep, hpending, hremoval, hothers⟩ := h.rejected e
  have charge : Trace.InCharge (before ++ .asked (.invoke target options s.id) :: during)
    (.register request session s.once) := h.inCharge balanced
  have nested : Trace.Balanced (.replied (.setUp (.error e)) :: removal) := by
    rw [hremoval]
    split <;> rfl
  have returned := charge.returns nested (.registered (.error (.directive s.name e)))
  refine .intro rfl h.stores h.waits hstep hpending rfl returned ?_
  obtain ⟨ended, hended⟩ : ∃ ended : Trace, ended = .replied (.setUp (.error e)) ::
    (removal ++ [.returned (.registered (.error (.directive s.name e)))]) := ⟨_, rfl⟩
  obtain ⟨unallocated, removals, fails⟩ := parts_of_failed hremoval hended
  rw [← hended] at hstep ⊢
  have history := run_concat history hstep
  have fresh : start.registry.ids.NeverRepeats (Trace.allocations
      (before ++ .asked (.invoke target options s.id) :: during ++ ended)) := by
    rwa [Trace.allocations_append, unallocated, List.append_nil]
  have removed : s.id ∈ Trace.removals
      (before ++ .asked (.invoke target options s.id) :: during ++ ended) := by
    rw [Trace.removals_append, Trace.removals_append, removals]
    by_cases already : s.id ∈ during.removals
    · exact List.mem_append_left _ (List.mem_append_right _ already)
    · simp [already]
  obtain ⟨registered, count, gone⟩ := new.count_of_removed history fresh removed
  constructor
  case gone => exact gone
  case forGood =>
    intro moves n later hlater fresh
    have longer := run_append_eq_some.2 ⟨_, _, _, history, hlater, rfl⟩
    refine (new.count_of_removed longer fresh ?_).2.2
    rw [Trace.removals_append]
    exact List.mem_append_left _ removed
  case registered => exact registered
  case removed => exact count
  case removal_eq => exact hremoval
  case failed =>
    rw [List.mem_append, fails, or_iff_right h.not_failed]
  case others => exact hothers
  case unstopped =>
    intro handle
    rw [hremoval]
    split <;> simp

/-- A directive registers another listener, for which a handle comes, and delivers to its own. -/
def nestedRegistration : List Move :=
  [.call (.register (.ofList [.string "a", .nil, .procedure { handle := 1 }]) none false),
    .reply (.resolved (.ok (some (.directive ⟨0⟩)))),
    .call (.register (.ofList [.string "b"]) none true),
    .reply (.resolved (.ok (some (.directive ⟨1⟩)))),
    .reply (.setUp (.ok true)),
    .call (.dispatch 7 .null false),
    .reply (.evaluated (.ok .nil))]

theorem failed_set_up_leaves_nothing_nestedRegistration : ∃ m before during, counting.IsNew ∧
    counting.run nestedRegistration =
      some (m, before ++ .asked (.invoke ⟨0⟩ .nil 7) :: during) ∧
    Trace.Balanced during ∧ Trace.own during = [] ∧
    counting.registry.ids.NeverRepeats
      (Trace.allocations (before ++ .asked (.invoke ⟨0⟩ .nil 7) :: during)) ∧
    Trace.log during = [.registered 8 "b" true, .dispatched 7 false] ∧
    FailsSetUp counting m before during (.invoke ⟨0⟩ .nil 7) 7 (.setup "refused") := by
  let before : Trace :=
    [.called (.register (.ofList [.string "a", .nil, .procedure { handle := 1 }]) none false),
      .asked (.resolve (.string "a")), .replied (.resolved (.ok (some (.directive ⟨0⟩)))),
      .received (.id none 7), .published (.registered 7 "a" false)]
  have history : counting.run nestedRegistration =
    some (_, before ++ .asked (.invoke ⟨0⟩ .nil 7) :: _) := rfl
  have fresh : [((none : Option Session), (7 : ListenerId)), (none, 8)].length ≤ UInt64.size := by
    decide
  exact ⟨_, before, _, counting_isNew, history, rfl, rfl, fresh, rfl,
    failed_set_up_leaves_nothing counting_isNew history rfl rfl fresh _⟩

/-- What a registration has returned, `whole` having passed until then: the listener as it is
stored, or as it was if it is gone. -/
structure ReturnsActive (m : Machine) (request : Value) (session : Option Session)
    (s : Subscription) (supplied : Bool) (whole : Trace) (active : Snapshot) : Prop where
  returned : whole.Returns (.register request session s.once) (.registered (.ok (.active active)))
  subscription : active.toSubscription = s
  cancellable : active.cancellable = true ↔ supplied = true ∧ m.registry.contains s.id = true
  stored : m.registry.contains s.id = true → m.registry.snapshot? s.id = some active
  stopped (handle : CancelHandle) : .received (.handle s.id handle) ∈ whole →
    m.registry.contains s.id = false → whole.stops.count handle = 1

inductive Activates (m m' : Machine) (s : Subscription) (others : List Pending) :
    Bool → Trace → Prop where
  | bare (ended : m'.pending = others)
      (stored : m'.registry.contains s.id = true →
        m'.registry.snapshot? s.id = some { s with cancellable := false }) :
      Activates m m' s others false
        [.returned (.registered (.ok (.active { s with cancellable := false })))]
  | attached (handle : CancelHandle) (ended : m'.pending = others)
      (stored : m'.registry.snapshot? s.id = some { s with cancellable := true }) :
      Activates m m' s others true [.received (.handle s.id handle),
        .returned (.registered (.ok (.active { s with cancellable := true })))]
  | late (handle : CancelHandle) (waits : m'.pending = .stoppingLate s :: others)
      (gone : m.registry.contains s.id = false) :
      Activates m m' s others true [.received (.handle s.id handle), .asked (.stop handle)]

theorem snapshot?_of_find? {r : Registry} {l : Listener} (found : r.listeners.find? id = some l) :
    r.snapshot? id = some l.snapshot := by
  simp [Registry.snapshot?, found]

theorem contains_of_snapshot? {r : Registry} {listener : Snapshot}
    (found : r.snapshot? id = some listener) : r.contains id = true := by
  obtain ⟨l, stored, -⟩ := Option.map_eq_some_iff.1 found
  exact Registry.contains_of_find? stored

theorem AtReturn.activates (h : AtReturn m before during request session s others)
    (supplied : Bool) :
    ∃ m' passed, m.step (.reply (.setUp (.ok supplied))) =
        some (m', .replied (.setUp (.ok supplied)) :: passed) ∧
      Activates m m' s others supplied passed := by
  have completes := completes_setUp (.ok supplied) h.own
  generalize hseen : (Effect.replied (.setUp (.ok supplied)) ::
    (m.registry.setUp s (.ok supplied)).effects) = seen at completes
  generalize hresult : Except.ok supplied = result at completes
  rw [h.step_setUp]
  cases completes with
  | bare same =>
    cases hresult
    have effects := (List.cons.inj hseen).2
    rw [Turn.pending_of_returned (by rw [effects]; rfl), effects]
    refine ⟨_, _, rfl, .bare rfl fun contained => ?_⟩
    obtain ⟨l, found⟩ := Option.isSome_iff_exists.1 contained
    rw [snapshot?_of_find? found, h.own l (same ▸ found)]
    rfl
  | attached handle stored attached =>
    cases hresult
    have effects := (List.cons.inj hseen).2
    rw [Turn.pending_of_returned (by rw [effects]; rfl), effects]
    refine ⟨_, _, rfl, .attached handle rfl ?_⟩
    have found := attached s.id
    rw [if_pos rfl] at found
    exact snapshot?_of_find? found
  | late handle gone same =>
    cases hresult
    have effects := (List.cons.inj hseen).2
    obtain ⟨waiting, hwaiting⟩ := Turn.pending_of_asked (by rw [effects]; rfl)
    have hlate : waiting = .stoppingLate s := by
      refine pending_setUp (.ok true) h.own ?_
      rw [hwaiting]
      exact List.mem_singleton.2 rfl
    rw [hwaiting, hlate, effects]
    exact ⟨_, _, rfl, .late handle rfl (Registry.contains_eq_false_iff.2 gone)⟩
  | rejected | rejectedLate => cases hresult

theorem step_stopped_of_stoppingLate (waits : m.pending = .stoppingLate s :: others)
    (result : Except DirectiveError Unit) : m.step (.reply (.stopped result)) =
      some ({ m with pending := others }, [.replied (.stopped result),
        .returned (.registered (.ok (.active
          { s with cancellable := m.registry.isCancellable s.id })))]) := by
  simp only [step, waits, Registry.resume?, Option.map_some]
  rfl

/-- When the handle of a listener that is gone has run, the registration returns without it. -/
theorem IsNew.returns_late (new : start.IsNew) (history : start.run moves = some (m, trace))
    (fresh : start.registry.ids.NeverRepeats trace.allocations)
    (waits : m.pending = .stoppingLate s :: others) (removed : s.id ∈ trace.removals)
    (charge : trace.InCharge (.register request session s.once)) (supplied : Bool)
    (result : Except DirectiveError Unit) :
    ∃ m' active, m.step (.reply (.stopped result)) = some (m',
        [.replied (.stopped result), .returned (.registered (.ok (.active active)))]) ∧
      m'.pending = others ∧ ReturnsActive m' request session s supplied
        (trace ++ [.replied (.stopped result), .returned (.registered (.ok (.active active)))])
        active := by
  have gone := (new.count_of_removed history fresh removed).2.2
  have hstep := step_stopped_of_stoppingLate waits result
  rw [Registry.isCancellable_of_not_contains gone] at hstep
  have nested : Trace.Balanced [.replied (.stopped result)] := rfl
  refine ⟨_, _, hstep, rfl, charge.returns nested _, rfl, by simp [gone], fun contained => ?_,
    fun handle received _ => ?_⟩
  · cases gone.symm.trans contained
  · refine new.count_stops_of_gone (run_concat history hstep) ?_ gone received
    rw [Trace.allocations_append]
    exact (List.append_nil trace.allocations).symm ▸ fresh

/-- What becomes of a registration whose directive was asked, and then has set up. -/
inductive SetsUp (start m : Machine) (before during : Trace) (asked : Request) (id : ListenerId)
    (supplied : Bool) : Prop where
  | atOnce {request : Value} {session : Option Session} {s : Subscription}
      {others : List Pending} {m' : Machine} {passed : Trace} {active : Snapshot}
      (own : s.id = id) (stores : before.Stores request session s)
      (waits : m.pending = .settingUp s :: others)
      (supplies : supplied = true → ∃ handle rest, passed = .received (.handle id handle) :: rest)
      (ends : m.step (.reply (.setUp (.ok supplied))) =
        some (m', .replied (.setUp (.ok supplied)) :: passed))
      (ended : m'.pending = others)
      (returns : ReturnsActive m' request session s supplied (before ++ .asked asked :: during ++
        .replied (.setUp (.ok supplied)) :: passed) active) :
      SetsUp start m before during asked id supplied
  -- The handle runs first, and other operations may be nested in it.
  | late {request : Value} {session : Option Session} {s : Subscription} {others : List Pending}
      {m' : Machine} {handle : CancelHandle} {whole : Trace} (own : s.id = id)
      (stores : before.Stores request session s) (waits : m.pending = .settingUp s :: others)
      (supplies : supplied = true)
      (stops : m.step (.reply (.setUp (.ok supplied))) =
        some (m', [.replied (.setUp (.ok supplied)), .received (.handle id handle),
          .asked (.stop handle)]))
      (stopping : m'.pending = .stoppingLate s :: others)
      (passed : whole = before ++ .asked asked :: during ++ [.replied (.setUp (.ok supplied)),
        .received (.handle id handle), .asked (.stop handle)])
      (returns : ∀ (moves : List Move) (n : Machine) (late : Trace)
          (result : Except DirectiveError Unit),
        m'.run moves = some (n, late) → late.Balanced → late.own = [] →
          start.registry.ids.NeverRepeats (Trace.allocations (whole ++ late)) →
            ∃ n' active, n.step (.reply (.stopped result)) = some (n',
                [.replied (.stopped result), .returned (.registered (.ok (.active active)))]) ∧
              n'.pending = others ∧
              ReturnsActive n' request session s supplied (whole ++ late ++
                [.replied (.stopped result), .returned (.registered (.ok (.active active)))])
                active) : SetsUp start m before during asked id supplied

/-- A registration whose directive sets up, whatever that has done before, returns the listener as
it is stored by then. If it is not stored any more, a handle that the directive has supplied has
run, whatever was nested in that. -/
theorem set_up_returns_listener (new : start.IsNew)
    (history : start.run moves = some (m, before ++ .asked (.invoke target options id) :: during))
    (balanced : during.Balanced) (inside : during.own = [])
    (fresh : start.registry.ids.NeverRepeats
      (Trace.allocations (before ++ .asked (.invoke target options id) :: during)))
    (supplied : Bool) : SetsUp start m before during (.invoke target options id) id supplied := by
  obtain ⟨request, session, s, others, rfl, h⟩ := new.atReturn history balanced inside fresh
  have charge : Trace.InCharge (before ++ .asked (.invoke target options s.id) :: during)
    (.register request session s.once) := h.inCharge balanced
  obtain ⟨m', passed, hstep, activates⟩ := h.activates supplied
  have history := run_concat history hstep
  have fresh : start.registry.ids.NeverRepeats (Trace.allocations
      (before ++ .asked (.invoke target options s.id) :: during ++
        .replied (.setUp (.ok supplied)) :: passed)) := by
    have unallocated : Trace.allocations (.replied (.setUp (.ok supplied)) :: passed) = [] := by
      cases activates <;> rfl
    rwa [Trace.allocations_append, unallocated, List.append_nil]
  cases activates with
  | bare ended stored =>
    have nested : Trace.Balanced [.replied (.setUp (.ok false))] := rfl
    exact .atOnce rfl h.stores h.waits nofun hstep ended ⟨charge.returns nested _, rfl, by simp,
      stored, fun handle received gone => new.count_stops_of_gone history fresh gone received⟩
  | attached handle ended stored =>
    have nested : Trace.Balanced [.replied (.setUp (.ok true)), .received (.handle s.id handle)] :=
      rfl
    have contained : m'.registry.contains s.id = true := contains_of_snapshot? stored
    exact .atOnce rfl h.stores h.waits (fun _ => ⟨handle, _, rfl⟩) hstep ended
      ⟨charge.returns nested _, rfl, by simp [contained], fun _ => stored,
        fun handle received gone => new.count_stops_of_gone history fresh gone received⟩
  | late handle waits gone =>
    refine .late rfl h.stores h.waits rfl hstep waits rfl
      fun moves n late result hlate closed inner fresh => ?_
    have waits : n.pending = .stoppingLate s :: others :=
      (run_inside hlate closed inner).1.trans waits
    have longer := run_append_eq_some.2 ⟨_, _, _, history, hlate, rfl⟩
    have nested : Trace.Balanced [.replied (.setUp (.ok true)), .received (.handle s.id handle),
      .asked (.stop handle)] := rfl
    refine new.returns_late longer fresh waits ?_ ((charge.append nested).append closed) _ result
    -- It was removed while the directive was at work.
    rw [Trace.removals_append, Trace.removals_append, Trace.removals_append]
    exact List.mem_append_left _ (List.mem_append_left _
      (List.mem_append_right _ (h.gone_iff.1 gone)))

theorem set_up_returns_listener_earlyDelivery : ∃ m, counting.IsNew ∧
    counting.run (earlyDelivery.take 4) = some (m, earlyDeliveryTrace.take 5 ++
      .asked (.invoke ⟨0⟩ .nil 7) :: (earlyDeliveryTrace.take 12).drop 6) ∧
    Trace.Balanced ((earlyDeliveryTrace.take 12).drop 6) ∧
    Trace.own ((earlyDeliveryTrace.take 12).drop 6) = [] ∧
    counting.registry.ids.NeverRepeats (Trace.allocations (earlyDeliveryTrace.take 5 ++
      .asked (.invoke ⟨0⟩ .nil 7) :: (earlyDeliveryTrace.take 12).drop 6)) ∧
    SetsUp counting m (earlyDeliveryTrace.take 5) ((earlyDeliveryTrace.take 12).drop 6)
      (.invoke ⟨0⟩ .nil 7) 7 true := by
  have history : counting.run (earlyDelivery.take 4) = some (_, earlyDeliveryTrace.take 5 ++
      .asked (.invoke ⟨0⟩ .nil 7) :: (earlyDeliveryTrace.take 12).drop 6) := rfl
  have fresh : counting.registry.ids.NeverRepeats (Trace.allocations (earlyDeliveryTrace.take 5 ++
      .asked (.invoke ⟨0⟩ .nil 7) :: (earlyDeliveryTrace.take 12).drop 6)) := by
    show [(none, 7)].length ≤ UInt64.size
    decide
  have balanced : Trace.Balanced ((earlyDeliveryTrace.take 12).drop 6) := rfl
  exact ⟨_, counting_isNew, history, balanced, rfl, fresh,
    set_up_returns_listener counting_isNew history balanced rfl fresh true⟩

end Machine

end ScriptEvents
