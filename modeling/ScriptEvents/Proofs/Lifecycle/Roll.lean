import Mathlib.Logic.Function.Basic
import ScriptEvents.Proofs.Machine.Step
/-!
The roll is what an observer of the lifecycle events knows of the stored listeners. Replaying the
events of any history gives the listeners that are stored, and each event fits the roll that it
finds.
-/
namespace ScriptEvents

structure Standing where
  name : String
  once : Bool
  deriving DecidableEq, Repr

abbrev Roll := ListenerId → Option Standing

namespace Roll

def see (v : Roll) : LifecycleEvent → Roll
  | .registered id name once => Function.update v id (some { name, once })
  | .removed id _ => Function.update v id none
  | _ => v

def replay (events : List LifecycleEvent) : Roll := events.foldl see fun _ => none

end Roll

/-- A listener comes where there is none, and fires and goes where there is one. -/
def LifecycleEvent.Fits (v : Roll) : LifecycleEvent → Prop
  | registered id _ _ => v id = none
  | dispatched id _ => (v id).isSome = true
  | removed id _ => (v id).isSome = true
  | ignored _ => True
  | callbackFailed _ _ => True

namespace Registry

def roll (r : Registry) : Roll :=
  fun id => (r.listeners.find? id).map fun l => { name := l.name, once := l.once }

theorem roll_of_find? {r : Registry} {id : ListenerId} {l : Listener}
    (found : r.listeners.find? id = some l) :
    r.roll id = some { name := l.name, once := l.once } := by
  simp [roll, found]

theorem roll_eq_none_iff {r : Registry} {id : ListenerId} :
    r.roll id = none ↔ r.contains id = false := by
  simp [roll, contains_eq_false_iff]

end Registry

namespace Roll

inductive Leads (handled : Bool) : Roll → List LifecycleEvent → Roll → Prop where
  | nil {v : Roll} : Leads handled v [] v
  | registered {v w : Roll} {id : ListenerId} {name : String} {once : Bool}
      {events : List LifecycleEvent} (absent : v id = none)
      (rest : Leads handled (v.see (.registered id name once)) events w) :
      Leads handled v (.registered id name once :: events) w
  | ignored {v w : Roll} {name : String} {events : List LifecycleEvent}
      (rest : Leads handled v events w) : Leads handled v (.ignored name :: events) w
  | callbackFailed {v w : Roll} {id : ListenerId} {message : String}
      {events : List LifecycleEvent} (rest : Leads handled v events w) :
      Leads handled v (.callbackFailed id message :: events) w
  | dispatched {v w : Roll} {s : Standing} {id : ListenerId} {isFinal : Bool}
      {events : List LifecycleEvent} (present : v id = some s)
      (stays : handled = true ∨ s.once = false ∧ isFinal = false)
      (rest : Leads handled v events w) : Leads handled v (.dispatched id isFinal :: events) w
  | removed {v w : Roll} {s : Standing} {id : ListenerId} {reason : RemovalReason}
      {events : List LifecycleEvent} (present : v id = some s) (unfired : reason ≠ .fired)
      (rest : Leads handled (v.see (.removed id reason)) events w) :
      Leads handled v (.removed id reason :: events) w
  | fired {v w : Roll} {s : Standing} {id : ListenerId} {isFinal : Bool}
      {events : List LifecycleEvent} (present : v id = some s) (alone : handled = false)
      (last : s.once = true ∨ isFinal = true)
      (rest : Leads handled (v.see (.removed id .fired)) events w) :
      Leads handled v (.dispatched id isFinal :: .removed id .fired :: events) w

namespace Leads

variable {handled : Bool} {u v w : Roll} {events later : List LifecycleEvent}

theorem append (h : Leads handled u events v) (rest : Leads handled v later w) :
    Leads handled u (events ++ later) w := by
  induction h with
  | nil => exact rest
  | registered absent _ ih => exact .registered absent (ih rest)
  | ignored _ ih => exact .ignored (ih rest)
  | callbackFailed _ ih => exact .callbackFailed (ih rest)
  | dispatched present stays _ ih => exact .dispatched present stays (ih rest)
  | removed present unfired _ ih => exact .removed present unfired (ih rest)
  | fired present alone last _ ih => exact .fired present alone last (ih rest)

theorem foldl_see (h : Leads handled v events w) : events.foldl see v = w := by
  induction h with
  | nil => rfl
  | _ => assumption

end Leads

theorem foldl_see_eq_none {v : Roll} {id : ListenerId} {events : List LifecycleEvent}
    (absent : v id = none) (unregistered : id ∉ events.filterMap LifecycleEvent.registered?) :
    events.foldl see v id = none := by
  induction events generalizing v with
  | nil => exact absent
  | cons e events ih =>
    refine ih ?_ fun h => unregistered ?_
    · cases e with
      | registered other name once =>
        have hne : id ≠ other := by
          rintro rfl
          exact unregistered (by simp [LifecycleEvent.registered?])
        simpa [see, Function.update_of_ne hne] using absent
      | removed other reason =>
        by_cases h : id = other
        · simp [see, h]
        · simpa [see, Function.update_of_ne h] using absent
      | _ => exact absent
    · rw [← List.singleton_append, List.filterMap_append]
      exact List.mem_append_right _ h

/-- What an event of a log has before it, from the roll `v` on, and after it. -/
def Placed (handled : Bool) (v : Roll) (before after : List LifecycleEvent) :
    LifecycleEvent → Prop
  | .registered id _ _ => before.foldl see v id = none
  | .dispatched id isFinal => ∃ s, before.foldl see v id = some s ∧
      (handled = true ∨ s.once = false ∧ isFinal = false ∨
        (s.once = true ∨ isFinal = true) ∧ ∃ rest, after = .removed id .fired :: rest)
  | .removed id reason => ∃ s, before.foldl see v id = some s ∧
      (reason = .fired → handled = false ∧ ∃ earlier isFinal,
        before = earlier ++ [.dispatched id isFinal] ∧ (s.once = true ∨ isFinal = true))
  | .ignored _ => True
  | .callbackFailed _ _ => True

theorem Placed.cons {handled : Bool} {v : Roll} {first e : LifecycleEvent}
    {before after : List LifecycleEvent} (h : Placed handled (v.see first) before after e) :
    Placed handled v (first :: before) after e := by
  cases e with
  | removed id reason =>
    obtain ⟨s, present, fired⟩ := h
    refine ⟨s, present, fun hreason => ?_⟩
    obtain ⟨alone, earlier, isFinal, rfl, last⟩ := fired hreason
    exact ⟨alone, first :: earlier, isFinal, rfl, last⟩
  | _ => exact h

theorem Leads.placed {handled : Bool} {v w : Roll} {events before after : List LifecycleEvent}
    {e : LifecycleEvent} (h : Leads handled v events w) (split : events = before ++ e :: after) :
    Placed handled v before after e := by
  induction h generalizing before with
  | nil => simp at split
  | registered absent _ ih =>
    cases before with
    | nil => cases split; exact absent
    | cons first before => cases split; exact (ih rfl).cons
  | ignored _ ih =>
    cases before with
    | nil => cases split; trivial
    | cons first before => cases split; exact (ih rfl).cons
  | callbackFailed _ ih =>
    cases before with
    | nil => cases split; trivial
    | cons first before => cases split; exact (ih rfl).cons
  | dispatched present stays _ ih =>
    cases before with
    | nil => cases split; exact ⟨_, present, stays.imp_right .inl⟩
    | cons first before => cases split; exact (ih rfl).cons
  | removed present unfired _ ih =>
    cases before with
    | nil => cases split; exact ⟨_, present, fun hreason => absurd hreason unfired⟩
    | cons first before => cases split; exact (ih rfl).cons
  -- The event may be the first or the second of the two.
  | fired present alone last _ ih =>
    match before with
    | [] => cases split; exact ⟨_, present, .inr (.inr ⟨last, _, rfl⟩)⟩
    | [_] => cases split; exact ⟨_, present, fun _ => ⟨alone, [], _, rfl, last⟩⟩
    | _ :: _ :: before => cases split; exact (ih rfl).cons.cons

theorem Placed.fits {handled : Bool} {before after : List LifecycleEvent} {e : LifecycleEvent}
    (h : Placed handled (fun _ => none) before after e) : e.Fits (replay before) := by
  cases e with
  | registered id name once => exact h
  | dispatched id isFinal =>
    obtain ⟨s, present, -⟩ := h
    exact Option.isSome_of_eq_some present
  | removed id reason =>
    obtain ⟨s, present, -⟩ := h
    exact Option.isSome_of_eq_some present
  | ignored name => trivial
  | callbackFailed id message => trivial

end Roll

namespace Registry

theorem roll_insert? {r : Registry} {l : Listener} {listeners : Roster}
    (vacant : r.listeners.insert? l = some listeners) :
    { r with listeners }.roll = r.roll.see (.registered l.id l.name l.once) := by
  funext id
  by_cases h : l.id = id
  · simp [roll, Roll.see, Roster.find?_insert? vacant, h]
  · simp [roll, Roll.see, Roster.find?_insert? vacant, h, Function.update_of_ne (Ne.symm h)]

theorem roll_remove (r : Registry) (id : ListenerId) (reason : RemovalReason) :
    (r.remove id).roll = r.roll.see (.removed id reason) := by
  funext other
  by_cases h : id = other
  · simp [roll, Roll.see, Roster.find?_erase, h]
  · simp [roll, Roll.see, Roster.find?_erase, h, Function.update_of_ne (Ne.symm h)]

theorem roll_attach (r : Registry) (id : ListenerId) (handle : CancelHandle) :
    { r with listeners := r.listeners.attach id handle }.roll = r.roll := by
  funext other
  by_cases h : id = other
  · simp [roll, Roster.find?_attach, h, Function.comp_def]
  · simp [roll, Roster.find?_attach, h]

theorem roll_eq_none_of_insert? {r : Registry} {l : Listener} {listeners : Roster}
    (vacant : r.listeners.insert? l = some listeners) : r.roll l.id = none := by
  rw [roll_eq_none_iff, contains]
  by_contra h
  simp [Roster.insert?_eq_none_iff.2 (by simpa using h)] at vacant

theorem Act.leads {r s : Registry} {seen : Trace} (act : Act r seen s) :
    Roll.Leads r.hasDispatchHandler r.roll seen.log s.roll := by
  cases act with
  | plain h =>
    simp only [Trace.log, List.filterMap_cons, Effect.event?_of_isPlain h, List.filterMap_nil]
    exact .nil
  | edit change =>
    have hroll : (r.editDirectory change).roll = r.roll := by
      funext id
      simp [roll]
    rw [hroll]
    exact .nil
  | assign given => exact .nil
  | store target vacant bare =>
    have stored := roll_insert? vacant
    exact .registered (roll_eq_none_of_insert? vacant) (stored ▸ .nil)
  | ignore name => exact .ignored .nil
  | fail id message => exact .callbackFailed .nil
  | deliver found alone stays => exact .dispatched (roll_of_find? found) (.inr ⟨stays, rfl⟩) .nil
  | handOver payload isFinal found handled =>
    exact .dispatched (roll_of_find? found) (.inl handled) .nil
  | @supply id stored =>
    have attached := roll_attach r id ⟨r.handles⟩
    exact attached ▸ .nil
  | supplyLate gone => exact .nil
  | @remove l id reason found unfired =>
    have removed := roll_remove r id reason
    rw [Trace.log_published, l.log_stopping]
    exact .removed (roll_of_find? found) unfired (removed ▸ .nil)
  | @fire l id isFinal found alone last =>
    have removed := roll_remove r id .fired
    rw [Trace.log_published, Trace.log_published, l.log_stopping]
    exact .fired (roll_of_find? found) alone last (removed ▸ .nil)

theorem Acts.leads {r s : Registry} {seen : Trace} (acts : Acts r seen s) :
    Roll.Leads r.hasDispatchHandler r.roll seen.log s.roll := by
  induction acts with
  | nil => exact .nil
  | cons first _ ih =>
    rw [first.hasDispatchHandler_eq] at ih
    rw [Trace.log_append]
    exact first.leads.append ih

end Registry

namespace Machine

theorem IsNew.leads {start m : Machine} {moves : List Move} {trace : Trace} (new : start.IsNew)
    (history : start.run moves = some (m, trace)) :
    Roll.Leads start.registry.hasDispatchHandler (fun _ => none) trace.log m.registry.roll := by
  have empty : start.registry.roll = fun _ => none := by
    funext id
    simp [Registry.roll, new.listeners]
  exact empty ▸ (new.acts history).leads

theorem IsNew.replay_log {start m : Machine} {moves : List Move} {trace : Trace}
    (new : start.IsNew) (history : start.run moves = some (m, trace)) :
    Roll.replay trace.log = m.registry.roll :=
  (new.leads history).foldl_see

theorem IsNew.fits {start m : Machine} {moves : List Move} {trace : Trace} (new : start.IsNew)
    (history : start.run moves = some (m, trace)) {before after : List LifecycleEvent}
    {e : LifecycleEvent} (split : trace.log = before ++ e :: after) :
    e.Fits (Roll.replay before) :=
  ((new.leads history).placed split).fits

/-- Every entry of a collaborator and every return ends a history, so this holds at each of them. -/
theorem log_replays_to_listeners {start m : Machine} {moves : List Move} {trace : Trace}
    (new : start.IsNew) (history : start.run moves = some (m, trace)) :
    Roll.replay trace.log = m.registry.roll ∧
      ∀ before e after, trace.log = before ++ e :: after → e.Fits (Roll.replay before) :=
  ⟨new.replay_log history, fun _ _ _ split => new.fits history split⟩

theorem log_replays_to_listeners_earlyDelivery : ∃ m,
    counting.IsNew ∧ counting.run earlyDelivery = some (m, earlyDeliveryTrace) ∧
      Roll.replay earlyDeliveryTrace.log = m.registry.roll ∧
      ∀ before e after, earlyDeliveryTrace.log = before ++ e :: after →
        e.Fits (Roll.replay before) := by
  obtain ⟨m, history⟩ := counting_run_earlyDelivery
  exact ⟨m, counting_isNew, history, log_replays_to_listeners counting_isNew history⟩

end Machine

end ScriptEvents
