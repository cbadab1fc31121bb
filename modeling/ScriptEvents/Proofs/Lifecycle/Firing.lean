import Mathlib.Data.List.Forall2
import ScriptEvents.Proofs.Lifecycle.Docket
import ScriptEvents.Proofs.Lifecycle.Roll
/-!
Where no dispatch handler takes over, a one-shot listener fires at most once: it is removed as soon
as it has fired, and the evaluator is called at most once for each one-shot registration.
-/
namespace ScriptEvents

def LifecycleEvent.dispatched? : LifecycleEvent → Option ListenerId
  | dispatched id _ => some id
  | _ => none

namespace Roll.Leads

variable {u v w : Roll} {s : Standing} {id : ListenerId}

theorem after_registered {handled : Bool} {events before after : List LifecycleEvent}
    {name : String} {once : Bool} (h : Leads handled u events w)
    (split : events = before ++ .registered id name once :: after) :
    ∃ v : Roll, v id = some { name, once } ∧ Leads handled v after w := by
  induction h generalizing before with
  | nil => simp at split
  | registered absent rest ih =>
    cases before with
    | nil =>
      cases split
      exact ⟨_, Function.update_self .., rest⟩
    | cons first before => cases split; exact ih rfl
  | ignored _ ih | callbackFailed _ ih | dispatched _ _ _ ih | removed _ _ _ ih =>
    cases before with
    | nil => cases split
    | cons first before => cases split; exact ih rfl
  | fired _ _ _ _ ih =>
    match before with
    | [] | [_] => cases split
    | _ :: _ :: before => cases split; exact ih rfl

theorem count_dispatched_le_one {events life after : List LifecycleEvent}
    (h : Leads false v events w) (split : events = life ++ after) (present : v id = some s)
    (once : s.once = true) (stays : ∀ reason, .removed id reason ∉ life) :
    (life.filterMap LifecycleEvent.dispatched?).count id ≤ 1 := by
  induction h generalizing life with
  | nil =>
    obtain ⟨rfl, -⟩ := List.append_eq_nil_iff.1 split.symm
    exact Nat.zero_le _
  | @registered v _ other name once _ absent _ ih =>
    cases life with
    | nil => exact Nat.zero_le _
    | cons _ life =>
      cases split
      have hne : id ≠ other := by
        rintro rfl
        rw [absent] at present
        cases present
      have present : v.see (.registered other name once) id = some s :=
        (Function.update_of_ne hne _ _).trans present
      exact @ih life rfl present fun reason hmem => stays reason (List.mem_cons_of_mem _ hmem)
  | ignored _ ih | callbackFailed _ ih =>
    cases life with
    | nil => exact Nat.zero_le _
    | cons _ life =>
      cases split
      exact @ih life rfl present fun reason hmem => stays reason (List.mem_cons_of_mem _ hmem)
  | @dispatched v _ standing other isFinal _ here repeats _ ih =>
    cases life with
    | nil => exact Nat.zero_le _
    | cons _ life =>
      cases split
      have hne : other ≠ id := by
        rintro rfl
        rw [here] at present
        cases present
        simp [once] at repeats
      have rest := @ih life rfl present fun reason hmem => stays reason (List.mem_cons_of_mem _ hmem)
      show (other :: life.filterMap LifecycleEvent.dispatched?).count id ≤ 1
      rwa [List.count_cons_of_ne hne]
  | @removed v _ _ other reason _ _ _ _ ih =>
    cases life with
    | nil => exact Nat.zero_le _
    | cons _ life =>
      cases split
      have hne : id ≠ other := by
        rintro rfl
        exact stays reason List.mem_cons_self
      have present : v.see (.removed other reason) id = some s :=
        (Function.update_of_ne hne _ _).trans present
      exact @ih life rfl present fun reason hmem => stays reason (List.mem_cons_of_mem _ hmem)
  | @fired v _ _ other isFinal _ _ _ _ _ ih =>
    match life with
    | [] => exact Nat.zero_le _
    -- The listener's life may end between the two events: it has fired just now.
    | [_] =>
      cases split
      exact List.count_le_length
    | _ :: _ :: life =>
      cases split
      have hne : id ≠ other := by
        rintro rfl
        exact stays .fired (List.mem_cons_of_mem _ List.mem_cons_self)
      have present : v.see (.removed other .fired) id = some s :=
        (Function.update_of_ne hne _ _).trans present
      have rest := @ih life rfl present fun reason hmem =>
        stays reason (List.mem_cons_of_mem _ (List.mem_cons_of_mem _ hmem))
      show (other :: life.filterMap LifecycleEvent.dispatched?).count id ≤ 1
      rwa [List.count_cons_of_ne (Ne.symm hne)]

end Roll.Leads

namespace Docket

def Ready (p : Pending) (ticket : Option Ticket) : Prop :=
  ∀ listener payload, p = .firing listener payload → ticket.isSome = true

end Docket

/-- A signal that is right for an operation with this ticket, if any: without one it neither calls
the evaluator nor waits to do so. -/
def Signal.Covered (ticket : Option Ticket) : Signal → Prop
  | .ask (.evaluate _) p => ticket.isSome = true ∧ Docket.Ready p none
  | .ask _ p => Docket.Ready p ticket
  | .done _ => True

namespace Docket

variable {d : Docket} {ticket : Option Ticket} {rest : List (Option Ticket)}
  {others : List Pending}

theorem see_signal (due : d.due = ticket :: rest) (ready : List.Forall₂ Ready others rest)
    (clean : none ∉ d.evaluated) {signal : Signal} (covered : signal.Covered ticket) :
    List.Forall₂ Ready (signal.pending ++ others) (d.see signal.effect).due ∧
      none ∉ (d.see signal.effect).evaluated := by
  match signal with
  | .done outcome =>
    have hdue : (d.see (.returned outcome)).due = rest := by simp [see, due]
    exact ⟨hdue ▸ ready, clean⟩
  | .ask (.evaluate expression) p =>
    obtain ⟨hticket, hp⟩ := covered
    have hdue : (d.see (.asked (.evaluate expression))).due = none :: rest := by simp [see, due]
    refine ⟨hdue ▸ .cons hp ready, fun h => ?_⟩
    have hevaluated : (d.see (.asked (.evaluate expression))).evaluated =
        ticket :: d.evaluated := by simp [see, due]
    rw [Signal.effect, hevaluated] at h
    rcases List.mem_cons.1 h with rfl | h
    · cases hticket
    · exact clean h
  | .ask (.resolve _) p | .ask (.allocate _) p | .ask (.invoke ..) p | .ask (.stop _) p
  | .ask (.handleError ..) p | .ask (.handleDispatch ..) p =>
    exact ⟨due ▸ .cons covered ready, clean⟩

theorem foldl_see_events (d : Docket) {events : List LifecycleEvent}
    (h : events.filterMap LifecycleEvent.dispatched? = []) :
    ((events.map .published).foldl see d).due = d.due ∧
      ((events.map .published).foldl see d).evaluated = d.evaluated := by
  induction events generalizing d with
  | nil => exact ⟨rfl, rfl⟩
  | cons e events ih =>
    cases e with
    | dispatched id isFinal => cases h
    | _ => exact ih _ h

theorem foldl_see_effects (d : Docket) (t : Turn) :
    t.effects.foldl see d = ((t.events.map .published).foldl see d).see t.signal.effect := by
  have hreceipts : (t.receipts.map .received).foldl see d = d := by
    induction t.receipts with
    | nil => rfl
    | cons _ _ ih => exact ih
  rw [Turn.effects, List.foldl_append, List.foldl_append, hreceipts]
  rfl

theorem see_cause {cause : Cause} (ready : List.Forall₂ Ready (cause.pending ++ others) d.due) :
    ∃ ticket rest, (d.see cause.effect).due = ticket :: rest ∧
      List.Forall₂ Ready others rest ∧ ∀ p ∈ cause.pending, Ready p ticket := by
  cases cause with
  | call operation => exact ⟨none, d.due, rfl, ready, nofun⟩
  | reply waiting reply =>
    obtain ⟨ticket, rest, hp, hrest, hdue⟩ := List.forall₂_cons_left_iff.1 ready
    refine ⟨ticket, rest, hdue, hrest, fun p hmem => ?_⟩
    cases List.mem_singleton.1 hmem
    exact hp

end Docket

namespace Registry

theorem covered_stop {ticket : Option Ticket} {l : Listener} {waiting : Pending} {next : Signal}
    (h : Docket.Ready waiting ticket) (hnext : next.Covered ticket) :
    (stop l waiting next).Covered ticket := by
  unfold stop
  split
  · exact h
  · exact hnext

theorem covered_delivery {ticket : Option Ticket} (r : Registry) (listener : Snapshot)
    (payload : HostValue) (h : ticket.isSome = true) :
    (r.delivery listener payload).Covered ticket := by
  unfold delivery
  split
  · trivial
  · split
    · exact ⟨h, nofun⟩
    · trivial

/-- A course that delivers to a listener first publishes that; any other needs the ticket that the
operation has. -/
theorem Course.covered {r : Registry} {cause : Cause} {t : Turn} (course : Course r cause t)
    (alone : r.hasDispatchHandler = false) {ticket : Option Ticket}
    (ready : ∀ p ∈ cause.pending, Docket.Ready p ticket) :
    t.events.filterMap LifecycleEvent.dispatched? = [] ∧ t.signal.Covered ticket ∨
      ∃ id isFinal later, t.events = .dispatched id isFinal :: later ∧
        later.filterMap LifecycleEvent.dispatched? = [] ∧ r.contains id = true ∧
        ∀ other : Option Ticket, other.isSome = true → t.signal.Covered other := by
  cases course with
  | reject e found => exact .inl ⟨rfl, covered_stop nofun trivial⟩
  | cancel found => exact .inl ⟨rfl, covered_stop nofun trivial⟩
  | tearDown report left =>
    refine .inl ⟨?_, ?_⟩
    · rw [List.filterMap_eq_nil_iff]
      intro e he
      obtain ⟨id, rfl⟩ := tearDown_events he
      rfl
    · rcases tearDown_signal r report left with ⟨_, h⟩ | ⟨_, _, _, _, h⟩
      · rw [h]
        trivial
      · rw [h]
        exact nofun
  | handOver payload isFinal found handled =>
    rw [alone] at handled
    cases handled
  | deliver payload found _ stays =>
    refine .inr ⟨_, _, [], rfl, rfl, Option.isSome_of_eq_some found, fun other h => ?_⟩
    exact covered_delivery r _ payload h
  | fire payload isFinal found _ last =>
    refine .inr ⟨_, _, [_], rfl, rfl, Option.isSome_of_eq_some found, fun other h => ?_⟩
    exact covered_stop (fun _ _ _ => h) (covered_delivery r _ payload h)
  | callBack listener payload result =>
    refine .inl ⟨rfl, covered_delivery r listener payload ?_⟩
    exact ready _ List.mem_cons_self listener payload rfl
  | fail listener e =>
    refine .inl ⟨rfl, ?_⟩
    dsimp only [evaluated, publish]
    split
    · exact nofun
    · trivial
  | finish outcome => exact .inl ⟨rfl, trivial⟩
  | ignore name => exact .inl ⟨rfl, trivial⟩
  | refuse given => exact .inl ⟨rfl, trivial⟩
  | supply stored => exact .inl ⟨rfl, trivial⟩
  | _ => exact .inl ⟨rfl, nofun⟩

open Docket in
theorem Course.ready {r : Registry} {cause : Cause} {t : Turn} (course : Course r cause t)
    (alone : r.hasDispatchHandler = false) {d : Docket} (sound : d.Sound r.listeners)
    {others : List Pending} (ready : List.Forall₂ Ready (cause.pending ++ others) d.due)
    (clean : none ∉ d.evaluated) :
    List.Forall₂ Ready (t.signal.pending ++ others)
        ((cause.effect :: t.effects).foldl see d).due ∧
      none ∉ ((cause.effect :: t.effects).foldl see d).evaluated := by
  obtain ⟨ticket, rest, hdue, hothers, hcause⟩ := see_cause ready
  have hevaluated : (d.see cause.effect).evaluated = d.evaluated := by cases cause <;> rfl
  have htickets : (d.see cause.effect).tickets = d.tickets := by cases cause <;> rfl
  rw [List.foldl_cons, foldl_see_effects]
  generalize d.see cause.effect = e at hdue hevaluated htickets ⊢
  -- Either the operation keeps its ticket, or it takes that of the listener it delivers to.
  rcases course.covered alone hcause with ⟨hquiet, hcovered⟩ |
      ⟨id, isFinal, later, hevents, hquiet, hstored, hcovered⟩
  · obtain ⟨hdue', hevaluated'⟩ := e.foldl_see_events hquiet
    exact see_signal (hdue'.trans hdue) hothers (hevaluated' ▸ hevaluated ▸ clean) hcovered
  · rw [hevents, List.map_cons, List.foldl_cons]
    obtain ⟨hdue', hevaluated'⟩ :=
      (e.see (.published (.dispatched id isFinal))).foldl_see_events hquiet
    have hticket : (e.tickets id).isSome = true := by
      have hagrees := congrArg Option.isSome (sound.agrees id)
      rw [Option.isSome_map, Option.isSome_map] at hagrees
      rw [htickets, hagrees]
      exact hstored
    have hfired : (e.see (.published (.dispatched id isFinal))).due = e.tickets id :: rest := by
      simp [see, hdue]
    exact see_signal (hdue'.trans hfired) hothers (hevaluated' ▸ hevaluated ▸ clean)
      (hcovered _ hticket)

end Registry

namespace Machine

variable {start m : Machine} {moves : List Move} {trace : Trace}

structure Docketed (trace : Trace) (m : Machine) : Prop where
  alone : m.registry.hasDispatchHandler = false
  sound : (Docket.replay trace).Sound m.registry.listeners
  ready : List.Forall₂ Docket.Ready m.pending (Docket.replay trace).due
  clean : none ∉ (Docket.replay trace).evaluated

theorem Docketed.step {before seen : Trace} {m m' : Machine} {move : Move}
    (inv : Docketed before m) (awaits : m.AwaitsIdsOutside)
    (hmove : m.step move = some (m', seen)) : Docketed (before ++ seen) m' := by
  have acts := awaits.acts hmove
  have alone : m'.registry.hasDispatchHandler = false :=
    acts.hasDispatchHandler_eq.trans inv.alone
  have sound := acts.docket inv.alone inv.sound
  rw [Docket.replay, ← List.foldl_append] at sound
  rcases awaits.step hmove with ⟨_, rfl, rfl⟩ | ⟨cause, others, t, hpending, course, rfl, rfl⟩
  · rw [List.append_nil] at sound ⊢
    exact ⟨alone, sound, inv.ready, inv.clean⟩
  · obtain ⟨ready, clean⟩ := course.ready inv.alone inv.sound (hpending ▸ inv.ready) inv.clean
    rw [Docket.replay, ← List.foldl_append] at ready clean
    exact ⟨alone, sound, ready, clean⟩

theorem IsNew.docketed (new : start.IsNew) (history : start.run moves = some (m, trace))
    (alone : start.registry.hasDispatchHandler = false) : Docketed trace m := by
  refine new.invariant Docketed history ⟨alone, ?_, ?_, nofun⟩ fun inv awaits hmove =>
    inv.step awaits hmove
  · rw [new.listeners]
    exact .empty
  · rw [new.pending]
    exact .nil

theorem one_shot_fires_at_most_once (new : start.IsNew)
    (history : start.run moves = some (m, trace))
    (alone : start.registry.hasDispatchHandler = false) :
    (∀ before id name life after,
      trace.log = before ++ .registered id name true :: (life ++ after) →
      (∀ reason, .removed id reason ∉ life) →
      (life.filterMap LifecycleEvent.dispatched?).count id ≤ 1) ∧
    (∀ before id isFinal after, trace.log = before ++ .dispatched id isFinal :: after →
      (isFinal = true ∨ ∃ name, Roll.replay before id = some { name, once := true }) →
      ∃ rest, after = .removed id .fired :: rest) ∧
    (∀ before id after, trace.log = before ++ .removed id .fired :: after →
      ∃ earlier isFinal, before = earlier ++ [.dispatched id isFinal] ∧
        (isFinal = true ∨ ∃ name, Roll.replay earlier id = some { name, once := true })) ∧
    none ∉ (Docket.replay trace).evaluated ∧
    ∀ ticket, ticket.once = true →
      (Docket.replay trace).evaluated.count (some ticket) ≤ 1 := by
  have leads := new.leads history
  rw [alone] at leads
  have docketed := new.docketed history alone
  refine ⟨?_, ?_, ?_, docketed.clean, ?_⟩
  · intro before id name life after split stays
    obtain ⟨v, present, rest⟩ := leads.after_registered split
    exact rest.count_dispatched_le_one rfl present rfl stays
  · intro before id isFinal after split last
    obtain ⟨s, present, handled | ⟨honce, hfinal⟩ | ⟨-, next⟩⟩ := leads.placed split
    · cases handled
    · rcases last with rfl | ⟨name, hone⟩
      · cases hfinal
      · cases present.symm.trans hone
        cases honce
    · exact next
  · intro before id after split
    obtain ⟨s, present, fired⟩ := leads.placed split
    obtain ⟨-, earlier, isFinal, rfl, last⟩ := fired rfl
    have here : Roll.replay earlier id = some s := by
      rw [List.foldl_append] at present
      exact present
    refine ⟨earlier, isFinal, rfl, last.symm.imp_right fun honce => ⟨s.name, ?_⟩⟩
    rw [here, ← honce]
  · intro ticket honce
    have once := docketed.sound.once ticket honce
    rw [Docket.uses, List.count_append] at once
    omega

theorem one_shot_fires_at_most_once_earlyDelivery : ∃ m,
    counting.IsNew ∧ counting.run earlyDelivery = some (m, earlyDeliveryTrace) ∧
    counting.registry.hasDispatchHandler = false ∧
    (∀ before id name life after,
      earlyDeliveryTrace.log = before ++ .registered id name true :: (life ++ after) →
      (∀ reason, .removed id reason ∉ life) →
      (life.filterMap LifecycleEvent.dispatched?).count id ≤ 1) ∧
    (∀ before id isFinal after,
      earlyDeliveryTrace.log = before ++ .dispatched id isFinal :: after →
      (isFinal = true ∨ ∃ name, Roll.replay before id = some { name, once := true }) →
      ∃ rest, after = .removed id .fired :: rest) ∧
    (∀ before id after, earlyDeliveryTrace.log = before ++ .removed id .fired :: after →
      ∃ earlier isFinal, before = earlier ++ [.dispatched id isFinal] ∧
        (isFinal = true ∨ ∃ name, Roll.replay earlier id = some { name, once := true })) ∧
    none ∉ (Docket.replay earlyDeliveryTrace).evaluated ∧
    ∀ ticket, ticket.once = true →
      (Docket.replay earlyDeliveryTrace).evaluated.count (some ticket) ≤ 1 := by
  obtain ⟨m, history⟩ := counting_run_earlyDelivery
  exact ⟨m, counting_isNew, history, rfl,
    one_shot_fires_at_most_once counting_isNew history rfl⟩

-- The evaluator is called once for the listener that its directive delivers to.
example : (Docket.replay earlyDeliveryTrace).evaluated = [some { number := 0, once := true }] := rfl

end Machine

end ScriptEvents
