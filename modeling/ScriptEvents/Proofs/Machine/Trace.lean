import ScriptEvents.Registry.Machine
/-!
Traces: all that passes in a history, in order, read one kind at a time. What every move preserves
holds after every history, and where a history asks a collaborator something it can be cut short.
-/
namespace ScriptEvents

abbrev Trace := List Effect

def LifecycleEvent.registered? : LifecycleEvent → Option ListenerId
  | registered id _ _ => some id
  | _ => none

namespace Effect

def event? : Effect → Option LifecycleEvent
  | published e => some e
  | _ => none

def allocation? : Effect → Option (Option Session × ListenerId)
  | received (.id session id) => some (session, id)
  | _ => none

def supply? : Effect → Option (ListenerId × CancelHandle)
  | received (.handle id handle) => some (id, handle)
  | _ => none

def stop? : Effect → Option CancelHandle
  | asked (.stop handle) => some handle
  | _ => none

end Effect

namespace Trace

def log (trace : Trace) : List LifecycleEvent := trace.filterMap Effect.event?

def registrations (trace : Trace) : List ListenerId :=
  trace.log.filterMap LifecycleEvent.registered?

def allocations (trace : Trace) : List (Option Session × ListenerId) :=
  trace.filterMap Effect.allocation?

/-- The handles that directives have supplied, in order, with the id of the listener of each. -/
def supplies (trace : Trace) : List (ListenerId × CancelHandle) :=
  trace.filterMap Effect.supply?

def stops (trace : Trace) : List CancelHandle := trace.filterMap Effect.stop?

theorem split_append {a b before after : Trace} {e : Effect}
    (h : a ++ b = before ++ e :: after) :
    (∃ rest, a = before ++ e :: rest ∧ after = rest ++ b) ∨
      ∃ first, before = a ++ first ∧ b = first ++ e :: after := by
  rcases List.append_eq_append_iff.1 h with ⟨first, hbefore, hb⟩ | ⟨rest, ha, hcons⟩
  · exact .inr ⟨first, hbefore, hb⟩
  · cases rest with
    | nil => exact .inr ⟨[], by simpa using ha.symm, hcons.symm⟩
    | cons _ rest =>
      cases hcons
      exact .inl ⟨rest, ha, rfl⟩

@[simp] theorem log_append (a b : Trace) : log (a ++ b) = log a ++ log b :=
  List.filterMap_append

@[simp] theorem registrations_append (a b : Trace) :
    registrations (a ++ b) = registrations a ++ registrations b := by
  simp [registrations]

@[simp] theorem allocations_append (a b : Trace) :
    allocations (a ++ b) = allocations a ++ allocations b :=
  List.filterMap_append

@[simp] theorem supplies_append (a b : Trace) : supplies (a ++ b) = supplies a ++ supplies b :=
  List.filterMap_append

@[simp] theorem stops_append (a b : Trace) : stops (a ++ b) = stops a ++ stops b :=
  List.filterMap_append

@[simp] theorem log_published (e : LifecycleEvent) (trace : Trace) :
    log (.published e :: trace) = e :: log trace := rfl

theorem mem_filterMap_iff {α : Type} (view : Effect → Option α) (effect : α → Effect)
    (sees : ∀ x, view (effect x) = some x) (only : ∀ e x, view e = some x → e = effect x)
    {trace : Trace} {x : α} : x ∈ trace.filterMap view ↔ effect x ∈ trace := by
  rw [List.mem_filterMap]
  constructor
  · rintro ⟨e, hmem, he⟩
    rwa [← only e x he]
  · exact fun h => ⟨effect x, h, sees x⟩

theorem mem_log {trace : Trace} {e : LifecycleEvent} :
    e ∈ trace.log ↔ .published e ∈ trace := by
  refine mem_filterMap_iff Effect.event? .published (fun _ => rfl) fun effect e h => ?_
  unfold Effect.event? at h
  split at h <;> cases h
  rfl

theorem mem_supplies {trace : Trace} {id : ListenerId} {handle : CancelHandle} :
    (id, handle) ∈ trace.supplies ↔ .received (.handle id handle) ∈ trace := by
  refine mem_filterMap_iff Effect.supply? (fun p => .received (.handle p.1 p.2)) (fun _ => rfl)
    fun effect p h => ?_
  unfold Effect.supply? at h
  split at h <;> cases h
  rfl

theorem mem_stops {trace : Trace} {handle : CancelHandle} :
    handle ∈ trace.stops ↔ .asked (.stop handle) ∈ trace := by
  refine mem_filterMap_iff Effect.stop? (fun handle => .asked (.stop handle)) (fun _ => rfl)
    fun effect handle h => ?_
  unfold Effect.stop? at h
  split at h <;> cases h
  rfl

end Trace

namespace Machine

structure IsNew (m : Machine) : Prop where
  pending : m.pending = []
  listeners : m.registry.listeners = .empty
  stats : m.registry.stats = {}
  handles : m.registry.handles = 0

theorem run_cons_eq_some {m m' : Machine} {move : Move} {moves : List Move} {trace : Trace} :
    m.run (move :: moves) = some (m', trace) ↔
      ∃ next seen later, m.step move = some (next, seen) ∧ next.run moves = some (m', later) ∧
        trace = seen ++ later := by
  simp only [run]
  cases m.step move with
  | none => simp
  | some result =>
    obtain ⟨next, seen⟩ := result
    simp only [Option.map_eq_some_iff, Prod.mk.injEq, Prod.exists, Option.some.injEq]
    constructor
    · rintro ⟨_, later, hrun, rfl, rfl⟩
      exact ⟨next, seen, later, ⟨rfl, rfl⟩, hrun, rfl⟩
    · rintro ⟨_, _, later, ⟨rfl, rfl⟩, hrun, rfl⟩
      exact ⟨m', later, hrun, rfl, rfl⟩

theorem run_preserves (Inv : Trace → Machine → Prop)
    (hstep : ∀ {before m move m' seen}, Inv before m → m.step move = some (m', seen) →
      Inv (before ++ seen) m')
    {before : Trace} {m m' : Machine} {moves : List Move} {trace : Trace} (h : Inv before m)
    (hrun : m.run moves = some (m', trace)) : Inv (before ++ trace) m' := by
  induction moves generalizing before m trace with
  | nil =>
    simp only [run, Option.some.injEq, Prod.mk.injEq] at hrun
    obtain ⟨rfl, rfl⟩ := hrun
    simpa using h
  | cons move moves ih =>
    obtain ⟨next, seen, later, hmove, hrest, rfl⟩ := run_cons_eq_some.1 hrun
    have := ih (hstep h hmove) hrest
    rwa [List.append_assoc] at this

theorem run_append_eq_some {m m' : Machine} {first later : List Move} {trace : Trace} :
    m.run (first ++ later) = some (m', trace) ↔
      ∃ n seen rest, m.run first = some (n, seen) ∧ n.run later = some (m', rest) ∧
        trace = seen ++ rest := by
  induction first generalizing m trace with
  | nil =>
    constructor
    · exact fun h => ⟨m, [], trace, rfl, h, rfl⟩
    · rintro ⟨_, _, _, hfirst, hlater, rfl⟩
      cases hfirst
      exact hlater
  | cons move first ih =>
    simp only [List.cons_append, run_cons_eq_some, ih]
    constructor
    · rintro ⟨next, now, _, hmove, ⟨n, seen, rest, hfirst, hlater, rfl⟩, rfl⟩
      exact ⟨n, now ++ seen, rest, ⟨next, now, seen, hmove, hfirst, rfl⟩, hlater,
        (List.append_assoc ..).symm⟩
    · rintro ⟨n, _, rest, ⟨next, now, seen, hmove, hfirst, rfl⟩, hlater, rfl⟩
      exact ⟨next, now, seen ++ rest, hmove, ⟨n, seen, rest, hfirst, hlater, rfl⟩,
        List.append_assoc ..⟩

theorem run_concat {m n n' : Machine} {moves : List Move} {move : Move} {trace seen : Trace}
    (history : m.run moves = some (n, trace)) (h : n.step move = some (n', seen)) :
    m.run (moves ++ [move]) = some (n', trace ++ seen) :=
  run_append_eq_some.2 ⟨n, trace, seen, history,
    run_cons_eq_some.2 ⟨n', seen, [], h, rfl, (List.append_nil _).symm⟩, rfl⟩

/-- Ids are counted from 7, and somebody outside knows the directives. -/
def counting : Machine :=
  { registry := { resolver := .external, ids := .sequential 7 } }

/-- A directive delivers to its one-shot listener while it sets up, so its handle comes late. -/
def earlyDelivery : List Move :=
  [.call (.register (.ofList [.string "tick", .nil, .procedure { handle := 1 }]) none true),
    .reply (.resolved (.ok (some (.directive ⟨0⟩)))),
    .call (.dispatch 7 (.boolean true) false),
    .reply (.evaluated (.ok .nil)),
    .reply (.setUp (.ok true)),
    .reply (.stopped (.ok ()))]

def earlyDeliveryTrace : Trace :=
  [.called (.register (.ofList [.string "tick", .nil, .procedure { handle := 1 }]) none true),
    .asked (.resolve (.string "tick")),
    .replied (.resolved (.ok (some (.directive ⟨0⟩)))),
    .received (.id none 7),
    .published (.registered 7 "tick" true),
    .asked (.invoke ⟨0⟩ .nil 7),
    .called (.dispatch 7 (.boolean true) false),
    .published (.dispatched 7 false),
    .published (.removed 7 .fired),
    .asked (.evaluate (.ofList [.procedure { handle := 1 }, .quote (.boolean true)])),
    .replied (.evaluated (.ok .nil)),
    .returned (.delivered (.ok (some .nil))),
    .replied (.setUp (.ok true)),
    .received (.handle 7 ⟨0⟩),
    .asked (.stop ⟨0⟩),
    .replied (.stopped (.ok ())),
    .returned (.registered (.ok (.active
      { id := 7, name := "tick", options := .nil, callback := some { handle := 1 }, once := true,
        cancellable := false })))]

theorem counting_isNew : counting.IsNew := ⟨rfl, rfl, rfl, rfl⟩

theorem counting_run_earlyDelivery :
    ∃ m, counting.run earlyDelivery = some (m, earlyDeliveryTrace) := ⟨_, rfl⟩

end Machine

end ScriptEvents
