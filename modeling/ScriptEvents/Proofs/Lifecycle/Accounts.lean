import ScriptEvents.Proofs.Lifecycle.Firing
/-!
Accounts: the counters agree with the log, and the log with the stored listeners, whatever is in
progress. For no listener did more callbacks fail than were dispatched to it.
-/
namespace ScriptEvents

def LifecycleEvent.failed? : LifecycleEvent → Option ListenerId
  | callbackFailed id _ => some id
  | _ => none

/-- The listener that an operation is going to call back, or has called and waits for. -/
def Pending.calling? : Pending → Option ListenerId
  | firing listener _ => some listener.id
  | evaluating listener => some listener.id
  | _ => none

def Trace.tally (trace : Trace) (kind : LifecycleEvent.Kind) : Nat :=
  trace.log.countP (·.kind = kind)

theorem Trace.tally_append (a b : Trace) (kind : LifecycleEvent.Kind) :
    tally (a ++ b) kind = a.tally kind + b.tally kind := by
  unfold tally
  rw [log_append, List.countP_append]

theorem Trace.tally_published (e : LifecycleEvent) (trace : Trace) (kind : LifecycleEvent.Kind) :
    tally (.published e :: trace) kind = trace.tally kind + if e.kind = kind then 1 else 0 := by
  unfold tally
  rw [log_published, List.countP_cons]
  simp

theorem Effect.tally_of_isPlain {e : Effect} (h : e.isPlain = true)
    (kind : LifecycleEvent.Kind) : Trace.tally [e] kind = 0 := by
  simp [Trace.tally, Trace.log, event?_of_isPlain h]

theorem Listener.tally_stopping (l : Listener) (kind : LifecycleEvent.Kind) :
    Trace.tally l.stopping kind = 0 := by
  simp [Trace.tally]

theorem Stats.foldl_record (s : Stats) (events : List LifecycleEvent) :
    events.foldl (fun s e => s.record e.kind) s =
      { registered := s.registered + .ofNat (events.countP (·.kind = .registered))
        ignored := s.ignored + .ofNat (events.countP (·.kind = .ignored))
        dispatched := s.dispatched + .ofNat (events.countP (·.kind = .dispatched))
        removed := s.removed + .ofNat (events.countP (·.kind = .removed))
        callbackErrors :=
          s.callbackErrors + .ofNat (events.countP (·.kind = .callbackFailed)) } := by
  induction events generalizing s with
  | nil => simp
  | cons e events ih =>
    have one (n : UInt64) (k : Nat) : n + 1 + .ofNat k = n + .ofNat (k + 1) := by
      rw [UInt64.ofNat_add, UInt64.add_comm (.ofNat k), ← UInt64.add_assoc]
      rfl
    rw [List.foldl_cons, ih]
    cases e <;> simp [record, LifecycleEvent.kind, one]

namespace Roster

theorem size_insert? {r r' : Roster} {l : Listener} (h : r.insert? l = some r') :
    r'.size = r.size + 1 := by
  unfold insert? at h
  split at h
  · cases h
    rfl
  · cases h

theorem size_attach (r : Roster) (id : ListenerId) (handle : CancelHandle) :
    (r.attach id handle).size = r.size :=
  List.length_map _

theorem size_erase {r : Roster} {id : ListenerId} {l : Listener} (found : r.find? id = some l) :
    (r.erase id).size + 1 = r.size := by
  have hmem : id ∈ r.ids := by
    by_contra h
    cases found.symm.trans (find?_eq_none_iff.2 h)
  have hids : r.ids.erase id = (r.erase id).ids :=
    (List.Nodup.erase_eq_filter r.distinct id).trans (List.filter_map ..)
  have hlength := List.length_erase_of_mem hmem
  have hpos := List.length_pos_of_mem hmem
  rw [hids] at hlength
  simp only [ids, List.length_map] at hlength hpos
  unfold size
  omega

end Roster

namespace Registry

variable {r s : Registry} {seen : Trace} {cause : Cause} {t : Turn}

theorem Act.stats_eq (act : Act r seen s) :
    s.stats = seen.log.foldl (fun stats e => stats.record e.kind) r.stats := by
  cases act with
  | plain h =>
    rw [Trace.log, List.filterMap_cons, Effect.event?_of_isPlain h]
    rfl
  | edit change => unfold editDirectory; split <;> rfl
  | @remove l => rw [Trace.log_published, l.log_stopping]; rfl
  | @fire l => rw [Trace.log_published, Trace.log_published, l.log_stopping]; rfl
  | _ => rfl

theorem Acts.stats_eq (acts : Acts r seen s) :
    s.stats = seen.log.foldl (fun stats e => stats.record e.kind) r.stats := by
  induction acts with
  | nil => rfl
  | cons first _ ih => rw [Trace.log_append, List.foldl_append, ← first.stats_eq, ih]

theorem Act.size_eq (act : Act r seen s) :
    seen.tally .removed + s.listeners.size = r.listeners.size + seen.tally .registered := by
  cases act with
  | plain h =>
    rw [Effect.tally_of_isPlain h, Effect.tally_of_isPlain h]
    exact Nat.add_comm ..
  | edit change =>
    rw [editDirectory_listeners]
    exact Nat.add_comm ..
  | store target vacant bare =>
    rw [record_listeners, Roster.size_insert? vacant]
    exact Nat.zero_add _
  | supply stored =>
    rw [Roster.size_attach]
    exact Nat.add_comm ..
  | @remove l id reason found unfired =>
    have hsize := Roster.size_erase found
    simp only [Trace.tally_published, l.tally_stopping, record_listeners, remove_listeners,
      LifecycleEvent.kind]
    simp only [reduceCtorEq, if_true, if_false]
    omega
  | @fire l id isFinal found alone last =>
    have hsize := Roster.size_erase found
    simp only [Trace.tally_published, l.tally_stopping, record_listeners, remove_listeners,
      LifecycleEvent.kind]
    simp only [reduceCtorEq, if_true, if_false]
    omega
  | _ => exact Nat.add_comm ..

theorem Acts.size_eq (acts : Acts r seen s) :
    seen.tally .removed + s.listeners.size = r.listeners.size + seen.tally .registered := by
  induction acts with
  | nil => exact Nat.add_comm ..
  | cons first _ ih =>
    have now := first.size_eq
    rw [Trace.tally_append, Trace.tally_append]
    omega

theorem calling_delivery (r : Registry) (listener : Snapshot) (payload : HostValue) :
    ((r.delivery listener payload).pending.filterMap Pending.calling?).Sublist [listener.id] := by
  rcases r.delivery_cases listener payload with ⟨_, hdone⟩ | ⟨_, _, -, -, hask⟩
  · rw [hdone]
    exact List.nil_sublist _
  · rw [hask]
    exact List.Sublist.refl _

theorem calling_stop {l : Listener} {waiting : Pending} {next : Signal} {due : List ListenerId}
    (h : ([waiting].filterMap Pending.calling?).Sublist due)
    (hnext : (next.pending.filterMap Pending.calling?).Sublist due) :
    ((stop l waiting next).pending.filterMap Pending.calling?).Sublist due := by
  rcases stop_cases l waiting next with ⟨_, -, hstop⟩ | ⟨-, hstop⟩
  · rwa [hstop]
  · rwa [hstop]

/-- A callback that failed or is still to come was dispatched before, or is dispatched now. -/
theorem Course.calling_sublist (course : Course r cause t) :
    (t.events.filterMap LifecycleEvent.failed? ++
      t.signal.pending.filterMap Pending.calling?).Sublist
      (cause.pending.filterMap Pending.calling? ++
        t.events.filterMap LifecycleEvent.dispatched?) := by
  cases course with
  | reject e found => exact calling_stop (List.nil_sublist _) (List.nil_sublist _)
  | cancel found => exact calling_stop (List.nil_sublist _) (List.nil_sublist _)
  | tearDown report left =>
    have hevents : (r.tearDown report left).events.filterMap LifecycleEvent.failed? = [] := by
      rw [List.filterMap_eq_nil_iff]
      intro e he
      obtain ⟨id, rfl⟩ := tearDown_events he
      rfl
    rw [hevents]
    rcases tearDown_signal r report left with ⟨_, hsignal⟩ | ⟨_, _, _, _, hsignal⟩
    · rw [hsignal]
      exact List.nil_sublist _
    · rw [hsignal]
      exact List.nil_sublist _
  | @deliver id l payload found =>
    have hid : l.snapshot.id = id := Roster.id_of_find? found
    exact hid ▸ calling_delivery r l.snapshot payload
  | @fire id l payload isFinal found =>
    have hid : l.snapshot.id = id := Roster.id_of_find? found
    exact hid ▸ calling_stop (List.Sublist.refl _) (calling_delivery r l.snapshot payload)
  | callBack listener payload result => exact calling_delivery r listener payload
  | fail listener e =>
    dsimp only [evaluated, publish]
    split
    · exact List.Sublist.refl _
    · exact List.Sublist.refl _
  | _ => exact List.nil_sublist _

end Registry

namespace Machine

variable {start m : Machine} {moves : List Move} {trace : Trace}

/-- The callbacks of a listener that failed, or are due, are no more than were dispatched. -/
def CallsDispatched (trace : Trace) (m : Machine) : Prop :=
  ∀ id, (trace.log.filterMap LifecycleEvent.failed?).count id +
    (m.pending.filterMap Pending.calling?).count id ≤
      (trace.log.filterMap LifecycleEvent.dispatched?).count id

theorem IsNew.callsDispatched (new : start.IsNew) (history : start.run moves = some (m, trace)) :
    CallsDispatched trace m := by
  refine new.invariant CallsDispatched history ?_ fun {before m move m' seen} inv awaits hmove => ?_
  · intro id
    rw [new.pending]
    exact Nat.le_refl _
  · intro id
    rcases awaits.step hmove with ⟨_, rfl, rfl⟩ | ⟨cause, others, t, hpending, course, rfl, rfl⟩
    · rw [List.append_nil]
      exact inv id
    · have hinv := inv id
      have hcourse := course.calling_sublist.count_le id
      have hlog : Trace.log (cause.effect :: t.effects) = t.events := by
        rw [← Registry.log_effects t]
        cases cause <;> rfl
      rw [hpending] at hinv
      rw [Trace.log_append, hlog]
      simp only [List.filterMap_append, List.count_append] at hinv hcourse ⊢
      omega

/-- Whatever is in progress, each counter counts, modulo `2 ^ 64`, the events of its kind, and the
listeners stored are those registered and not removed. -/
theorem counters_agree_with_log (new : start.IsNew) (history : start.run moves = some (m, trace)) :
    m.registry.stats =
        { registered := .ofNat (trace.tally .registered)
          ignored := .ofNat (trace.tally .ignored)
          dispatched := .ofNat (trace.tally .dispatched)
          removed := .ofNat (trace.tally .removed)
          callbackErrors := .ofNat (trace.tally .callbackFailed) } ∧
      m.registry.stats.registered = m.registry.stats.removed + .ofNat m.registry.listeners.size ∧
      trace.tally .registered = trace.tally .removed + m.registry.listeners.size ∧
      ∀ id, (trace.log.filterMap LifecycleEvent.failed?).count id ≤
        (trace.log.filterMap LifecycleEvent.dispatched?).count id := by
  have stats : m.registry.stats = _ :=
    (new.acts history).stats_eq.trans (Stats.foldl_record _ _)
  rw [new.stats] at stats
  simp only [UInt64.zero_add] at stats
  have size := (new.acts history).size_eq
  rw [new.listeners] at size
  have stored : trace.tally .registered = trace.tally .removed + m.registry.listeners.size := by
    rw [size]
    exact (Nat.zero_add _).symm
  refine ⟨stats, ?_, stored, fun id => ?_⟩
  · rw [stats]
    exact (congrArg UInt64.ofNat stored).trans (UInt64.ofNat_add ..)
  · have h := new.callsDispatched history id
    omega

/-- The callback of a listener registers in vain and fails. Then the listener is cancelled. -/
def failedCallback : List Move :=
  [.call (.register (.ofList [.string "tick", .nil, .procedure { handle := 1 }]) none false),
    .reply (.resolved (.ok (some (.directive ⟨0⟩)))),
    .reply (.setUp (.ok true)),
    .call (.dispatch 7 (.boolean true) false),
    .call (.register (.ofList [.string "tock"]) none false),
    .reply (.resolved (.ok (some .ignore))),
    .reply (.evaluated (.error (.failed "no"))),
    .call (.cancel 7)]

theorem counters_agree_with_log_failedCallback : ∃ m trace,
    counting.IsNew ∧ counting.run failedCallback = some (m, trace) ∧
    m.pending = [.cancelling] ∧
    m.registry.stats =
        { registered := 1, ignored := 1, dispatched := 1, removed := 1, callbackErrors := 1 } ∧
    m.registry.stats =
        { registered := .ofNat (Trace.tally trace .registered)
          ignored := .ofNat (Trace.tally trace .ignored)
          dispatched := .ofNat (Trace.tally trace .dispatched)
          removed := .ofNat (Trace.tally trace .removed)
          callbackErrors := .ofNat (Trace.tally trace .callbackFailed) } ∧
      m.registry.stats.registered = m.registry.stats.removed + .ofNat m.registry.listeners.size ∧
      Trace.tally trace .registered =
        Trace.tally trace .removed + m.registry.listeners.size ∧
      ∀ id, ((Trace.log trace).filterMap LifecycleEvent.failed?).count id ≤
        ((Trace.log trace).filterMap LifecycleEvent.dispatched?).count id := by
  have history : counting.run failedCallback = some (_, _) := rfl
  exact ⟨_, _, counting_isNew, history, rfl, rfl, counters_agree_with_log counting_isNew history⟩

end Machine

end ScriptEvents
