import Mathlib.Logic.Function.Basic
import ScriptEvents.Proofs.Machine.Act
/-!
The docket is kept by an observer who gives every registration a ticket. It tells for which
registration an operation delivers, and so for which the evaluator is called. Without a dispatch
handler, no one-shot ticket is used twice.
-/
namespace ScriptEvents

structure Ticket where
  number : Nat
  once : Bool
  deriving DecidableEq, Repr

structure Docket where
  issued : Nat := 0
  tickets : ListenerId → Option Ticket := fun _ => none
  -- What each operation in progress delivers for and has not called back, innermost first.
  due : List (Option Ticket) := []
  evaluated : List (Option Ticket) := []

namespace Docket

def see (d : Docket) : Effect → Docket
  | .called _ => { d with due := none :: d.due }
  | .returned _ => { d with due := d.due.tail }
  | .published (.registered id _ once) =>
    { d with
      issued := d.issued + 1
      tickets := Function.update d.tickets id (some { number := d.issued, once }) }
  | .published (.removed id _) => { d with tickets := Function.update d.tickets id none }
  | .published (.dispatched id _) => { d with due := d.tickets id :: d.due.tail }
  | .asked (.evaluate _) =>
    { d with due := none :: d.due.tail, evaluated := d.due.head?.join :: d.evaluated }
  | _ => d

def replay (trace : Trace) : Docket := trace.foldl see {}

def uses (d : Docket) (ticket : Ticket) : Nat :=
  (d.due ++ d.evaluated).count (some ticket)

theorem see_plain (d : Docket) {e : Effect} (h : e.isPlain = true) :
    (d.see e).issued = d.issued ∧ (d.see e).tickets = d.tickets := by
  match e with
  | .called _ | .replied _ | .returned _ | .asked (.resolve _) | .asked (.allocate _)
  | .asked (.evaluate _) | .asked (.handleError ..) => exact ⟨rfl, rfl⟩

theorem uses_plain_le (d : Docket) {e : Effect} (h : e.isPlain = true) (ticket : Ticket) :
    (d.see e).uses ticket ≤ d.uses ticket := by
  match e with
  | .called _ => simp [see, uses]
  | .returned _ => exact ((List.tail_sublist _).append_right _).count_le _
  | .asked (.evaluate _) =>
    unfold uses see
    cases d.due with
    | nil => simp
    | cons x rest =>
      simp only [List.tail_cons, List.head?_cons, Option.join_some, List.count_append,
        List.count_cons_of_ne (Option.some_ne_none ticket).symm, List.count_cons]
      omega
  | .replied _ | .asked (.resolve _) | .asked (.allocate _) | .asked (.handleError ..) =>
    exact Nat.le_refl _

theorem uses_dispatched_le (d : Docket) (id : ListenerId) (isFinal : Bool) (ticket : Ticket) :
    (d.see (.published (.dispatched id isFinal))).uses ticket ≤
      d.uses ticket + [d.tickets id].count (some ticket) := by
  have hsub : (d.due.tail ++ d.evaluated).count (some ticket) ≤ d.uses ticket :=
    ((List.tail_sublist _).append_right _).count_le _
  simp only [uses, see, List.cons_append, List.count_cons, List.count_nil] at hsub ⊢
  omega

theorem uses_dispatched_of_ne (d : Docket) {id : ListenerId} (isFinal : Bool) {ticket : Ticket}
    (other : d.tickets id ≠ some ticket) :
    (d.see (.published (.dispatched id isFinal))).uses ticket ≤ d.uses ticket := by
  have h := d.uses_dispatched_le id isFinal ticket
  rwa [List.count_singleton, if_neg (by simpa using other), Nat.add_zero] at h

structure Sound (d : Docket) (listeners : Roster) : Prop where
  agrees : ∀ id, (d.tickets id).map (·.once) = (listeners.find? id).map (·.once)
  numbered : ∀ id ticket, d.tickets id = some ticket → ticket.number < d.issued
  issued : ∀ ticket, d.issued ≤ ticket.number → d.uses ticket = 0
  distinct : ∀ id other ticket, d.tickets id = some ticket → d.tickets other = some ticket →
    id = other
  unused : ∀ id ticket, d.tickets id = some ticket → ticket.once = true → d.uses ticket = 0
  once : ∀ ticket, ticket.once = true → d.uses ticket ≤ 1

namespace Sound

variable {d : Docket} {listeners : Roster}

theorem empty : Sound {} .empty where
  agrees _ := rfl
  numbered := nofun
  issued _ _ := rfl
  distinct := nofun
  unused := nofun
  once _ _ := Nat.zero_le _

theorem mono (sound : d.Sound listeners) {e : Docket} (issued : e.issued = d.issued)
    (tickets : e.tickets = d.tickets)
    (uses : ∀ ticket, ticket.once = true ∨ d.issued ≤ ticket.number →
      e.uses ticket ≤ d.uses ticket) : e.Sound listeners where
  agrees id := tickets ▸ sound.agrees id
  numbered id ticket h := issued ▸ sound.numbered id ticket (tickets ▸ h)
  issued ticket h := by
    rw [issued] at h
    exact Nat.le_zero.1 (sound.issued ticket h ▸ uses ticket (.inr h))
  distinct id other ticket h h' := sound.distinct id other ticket (tickets ▸ h) (tickets ▸ h')
  unused id ticket h honce :=
    Nat.le_zero.1 (sound.unused id ticket (tickets ▸ h) honce ▸ uses ticket (.inl honce))
  once ticket honce := Nat.le_trans (uses ticket (.inl honce)) (sound.once ticket honce)

theorem plain (sound : d.Sound listeners) {e : Effect} (h : e.isPlain = true) :
    (d.see e).Sound listeners := by
  obtain ⟨issued, tickets⟩ := d.see_plain h
  exact sound.mono issued tickets fun ticket _ => d.uses_plain_le h ticket

theorem attach (sound : d.Sound listeners) (id : ListenerId) (handle : CancelHandle) :
    d.Sound (listeners.attach id handle) := by
  refine { sound with agrees := fun other => ?_ }
  rw [sound.agrees, Roster.find?_attach]
  split
  · rw [Option.map_map]
    rfl
  · rfl

theorem store (sound : d.Sound listeners) {l : Listener} {roster : Roster}
    (vacant : listeners.insert? l = some roster) :
    (d.see (.published (.registered l.id l.name l.once))).Sound roster := by
  have hsee : ∀ id ticket,
      (d.see (.published (.registered l.id l.name l.once))).tickets id = some ticket →
        id = l.id ∧ ticket = { number := d.issued, once := l.once } ∨
          d.tickets id = some ticket := by
    intro id ticket h
    simp only [see, Function.update_apply] at h
    split at h
    next hid =>
      cases h
      exact .inl ⟨hid, rfl⟩
    · exact .inr h
  constructor
  case agrees =>
    intro id
    rw [Roster.find?_insert? vacant]
    by_cases h : l.id = id
    · simp [see, h]
    · simp [see, h, Function.update_of_ne (Ne.symm h), sound.agrees]
  case numbered =>
    intro id ticket h
    rcases hsee id ticket h with ⟨-, hnew⟩ | hold
    · rw [hnew]
      exact Nat.lt_succ_self _
    · exact Nat.lt_succ_of_lt (sound.numbered id ticket hold)
  case issued => exact fun ticket h => sound.issued ticket (Nat.le_of_succ_le h)
  case distinct =>
    intro id other ticket h h'
    rcases hsee id ticket h with ⟨hid, hnew⟩ | hold
    · rcases hsee other ticket h' with ⟨hother, -⟩ | hold'
      · rw [hid, hother]
      · have hlt := sound.numbered other ticket hold'
        rw [hnew] at hlt
        exact absurd hlt (Nat.lt_irrefl _)
    · rcases hsee other ticket h' with ⟨-, hnew⟩ | hold'
      · have hlt := sound.numbered id ticket hold
        rw [hnew] at hlt
        exact absurd hlt (Nat.lt_irrefl _)
      · exact sound.distinct id other ticket hold hold'
  case unused =>
    intro id ticket h honce
    rcases hsee id ticket h with ⟨-, hnew⟩ | hold
    · rw [hnew]
      exact sound.issued _ (Nat.le_refl _)
    · exact sound.unused id ticket hold honce
  case once => exact sound.once

theorem tickets_removed {d : Docket} {id other : ListenerId} {reason : RemovalReason}
    {ticket : Ticket}
    (h : (d.see (.published (.removed id reason))).tickets other = some ticket) :
    other ≠ id ∧ d.tickets other = some ticket := by
  simp only [see, Function.update_apply] at h
  split at h
  · cases h
  next hne => exact ⟨hne, h⟩

theorem remove (sound : d.Sound listeners) (id : ListenerId) (reason : RemovalReason) :
    (d.see (.published (.removed id reason))).Sound (listeners.erase id) where
  agrees other := by
    rw [Roster.find?_erase]
    by_cases h : id = other
    · simp [see, h]
    · simp [see, h, Function.update_of_ne (Ne.symm h), sound.agrees]
  numbered other ticket h := sound.numbered other ticket (tickets_removed h).2
  issued := sound.issued
  distinct a b ticket h h' :=
    sound.distinct a b ticket (tickets_removed h).2 (tickets_removed h').2
  unused other ticket h := sound.unused other ticket (tickets_removed h).2
  once := sound.once

theorem deliver (sound : d.Sound listeners) {id : ListenerId} {l : Listener} (isFinal : Bool)
    (found : listeners.find? id = some l) (stays : l.once = false) :
    (d.see (.published (.dispatched id isFinal))).Sound listeners := by
  refine sound.mono rfl rfl fun ticket h => d.uses_dispatched_of_ne isFinal fun hticket => ?_
  rcases h with honce | hissued
  · have hagrees := sound.agrees id
    rw [hticket, found] at hagrees
    simp [honce, stays] at hagrees
  · exact Nat.not_lt.2 hissued (sound.numbered id ticket hticket)

theorem fire (sound : d.Sound listeners) (id : ListenerId) (isFinal : Bool) :
    ((d.see (.published (.dispatched id isFinal))).see (.published (.removed id .fired))).Sound
      (listeners.erase id) := by
  have removed := sound.remove id .fired
  have hothers {ticket : Ticket} (h : d.tickets id ≠ some ticket) (hd : d.uses ticket = 0) :
      (d.see (.published (.dispatched id isFinal))).uses ticket = 0 :=
    Nat.le_zero.1 (hd ▸ d.uses_dispatched_of_ne isFinal h)
  constructor
  case agrees => exact removed.agrees
  case numbered => exact removed.numbered
  case issued =>
    intro ticket h
    refine hothers (fun hticket => ?_) (sound.issued ticket h)
    exact Nat.not_lt.2 h (sound.numbered id ticket hticket)
  case distinct => exact removed.distinct
  case unused =>
    intro other ticket h honce
    obtain ⟨hne, hother⟩ := tickets_removed h
    exact hothers (fun hticket => hne (sound.distinct other id ticket hother hticket))
      (sound.unused other ticket hother honce)
  case once =>
    intro ticket honce
    by_cases hticket : d.tickets id = some ticket
    · have h := d.uses_dispatched_le id isFinal ticket
      rw [sound.unused id ticket hticket honce, hticket, List.count_singleton_self] at h
      exact h
    · exact Nat.le_trans (d.uses_dispatched_of_ne isFinal hticket) (sound.once ticket honce)

end Sound

theorem foldl_see_stopping (d : Docket) (l : Listener) : l.stopping.foldl see d = d := by
  unfold Listener.stopping
  split <;> rfl

end Docket

namespace Registry

theorem Act.docket {r s : Registry} {now : Trace} (act : Act r now s)
    (alone : r.hasDispatchHandler = false) {d : Docket} (sound : d.Sound r.listeners) :
    (now.foldl Docket.see d).Sound s.listeners := by
  cases act with
  | plain h => exact sound.plain h
  | edit change =>
    rw [editDirectory_listeners]
    exact sound
  | assign given => exact sound
  | store target vacant bare => exact sound.store vacant
  | ignore name => exact sound
  | fail id message => exact sound
  | deliver found _ stays => exact sound.deliver false found stays
  | handOver payload isFinal found handled =>
    rw [alone] at handled
    cases handled
  | supply stored => exact sound.attach _ _
  | supplyLate gone => exact sound
  | @remove l id reason found unfired =>
    rw [List.foldl_cons, Docket.foldl_see_stopping]
    exact sound.remove id reason
  | @fire l id isFinal found _ last =>
    rw [List.foldl_cons, List.foldl_cons, Docket.foldl_see_stopping]
    exact sound.fire id isFinal

theorem Acts.docket {r s : Registry} {seen : Trace} (acts : Acts r seen s)
    (alone : r.hasDispatchHandler = false) {d : Docket} (sound : d.Sound r.listeners) :
    (seen.foldl Docket.see d).Sound s.listeners := by
  induction acts generalizing d with
  | nil => exact sound
  | cons first _ ih =>
    rw [List.foldl_append]
    exact ih (first.hasDispatchHandler_eq ▸ alone) (first.docket alone sound)

end Registry

end ScriptEvents
