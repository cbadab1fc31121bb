import ScriptEvents.Proofs.IdSource.Distinct
import ScriptEvents.Proofs.Registry.Custody
/-!
Cancel handles: where no id is given twice, each handle is either held by its listener or has been
run, once and after the listener was removed.
-/
namespace ScriptEvents

def Pending.settingUp? : Pending → Option ListenerId
  | settingUp s => some s.id
  | _ => none

def LifecycleEvent.removed? : LifecycleEvent → Option ListenerId
  | removed id _ => some id
  | _ => none

namespace Trace

def removals (trace : Trace) : List ListenerId := trace.log.filterMap LifecycleEvent.removed?

@[simp] theorem removals_append (a b : Trace) : removals (a ++ b) = removals a ++ removals b := by
  simp [removals]

theorem mem_removals {trace : Trace} {id : ListenerId} :
    id ∈ trace.removals ↔ ∃ reason, .published (.removed id reason) ∈ trace := by
  constructor
  · intro h
    obtain ⟨e, hmem, he⟩ := List.mem_filterMap.1 h
    unfold LifecycleEvent.removed? at he
    split at he
    next _ reason =>
      cases he
      exact ⟨reason, mem_log.1 hmem⟩
    · cases he
  · rintro ⟨reason, h⟩
    exact List.mem_filterMap.2 ⟨_, mem_log.2 h, rfl⟩

def ledger (trace : Trace) : Ledger :=
  { registered := trace.registrations
    supplied := trace.supplies
    removed := trace.removals
    spent := trace.stops }

theorem ledger_append (a b : Trace) : ledger (a ++ b) = a.ledger ++ b.ledger := by
  simp [ledger, removals, Ledger.append_def]

theorem ledger_of_isPlain {e : Effect} (h : e.isPlain = true) : ledger [e] = {} := by
  match e with
  | .called _ | .replied _ | .returned _ | .asked (.resolve _) | .asked (.allocate _)
  | .asked (.evaluate _) | .asked (.handleError ..) => rfl

theorem custody_plain {trace : Trace} {listeners : Roster} {handles : Nat} {e : Effect}
    (kept : Custody trace.ledger listeners handles) (plain : e.isPlain = true) :
    Custody (ledger (trace ++ [e])) listeners handles := by
  rw [ledger_append, ledger_of_isPlain plain]
  exact kept.nothing

theorem ledger_dispatched (id : ListenerId) (isFinal : Bool) (trace : Trace) :
    ledger (.published (.dispatched id isFinal) :: trace) = trace.ledger := rfl

theorem ledger_removed (id : ListenerId) (reason : RemovalReason) (l : Listener) :
    ledger (.published (.removed id reason) :: l.stopping) =
      { removed := [id], spent := l.handle.toList } := by
  unfold Listener.stopping
  split
  next h => rw [h]; rfl
  next h => rw [h]; rfl

/-- There is a listener that had this handle and was removed. -/
def Owed (trace : Trace) (handle : CancelHandle) : Prop :=
  ∃ id, (id, handle) ∈ trace.supplies ∧ id ∈ trace.removals

def OnlyOwed (trace : Trace) : Prop :=
  ∀ before handle after, trace = before ++ .asked (.stop handle) :: after → Owed before handle

variable {a b : Trace} {handle : CancelHandle}

theorem OnlyOwed.append (h : OnlyOwed a) (quiet : b.stops = []) : OnlyOwed (a ++ b) := by
  intro before handle after split
  rcases split_append split with ⟨rest, ha, -⟩ | ⟨first, -, hb⟩
  · exact h before handle rest ha
  · have hmem : handle ∈ stops b := mem_stops.2 (by simp [hb])
    rw [quiet] at hmem
    cases hmem

theorem OnlyOwed.asked_stop (h : OnlyOwed a) (owed : Owed a handle) :
    OnlyOwed (a ++ [.asked (.stop handle)]) := by
  intro before other after split
  rcases split_append split with ⟨rest, ha, -⟩ | ⟨first, hbefore, hb⟩
  · exact h before other rest ha
  · cases first with
    | nil =>
      cases hb
      rw [hbefore, List.append_nil]
      exact owed
    | cons _ first => simp at hb

theorem OnlyOwed.stopping (h : OnlyOwed a) (l : Listener)
    (owed : ∀ handle, l.handle = some handle → Owed a handle) : OnlyOwed (a ++ l.stopping) := by
  unfold Listener.stopping
  split
  next handle hl => exact h.asked_stop (owed handle hl)
  next => exact h.append rfl

end Trace

namespace Registry

theorem settingUp?_of_isLate {p : Pending} (h : p.isLate = true) : p.settingUp? = none := by
  cases p <;> first | rfl | cases h

theorem supplies_effects {t : Turn} (h : t.receipts = []) : Trace.supplies t.effects = [] := by
  have hevents : Trace.supplies (t.events.map .published) = [] := by
    simp [Trace.supplies, List.filterMap_eq_nil_iff, Effect.supply?]
  have hsignal : Trace.supplies [t.signal.effect] = [] := by
    cases t.signal <;> rfl
  simp [Turn.effects, h, hevents, hsignal]

/-- A course supplies the handle that it was started with, or it waits for a set-up if it registers.
-/
theorem Course.supplies_cases {r : Registry} {cause : Cause} {t : Turn}
    (course : Course r cause t) :
    (Trace.supplies t.effects = [] ∧
      t.signal.pending.filterMap Pending.settingUp? = Trace.registrations t.effects) ∨
    ∃ id handle, cause.pending.filterMap Pending.settingUp? = [id] ∧
      Trace.supplies t.effects = [(id, handle)] ∧ Trace.registrations t.effects = [] ∧
      t.signal.pending.filterMap Pending.settingUp? = [] := by
  -- What all other courses wait for is no set-up.
  have settled {t : Turn} (receipts : t.receipts = [])
      (events : t.events.filterMap LifecycleEvent.registered? = [])
      (late : t.signal.Late) :
      Trace.supplies t.effects = [] ∧
        t.signal.pending.filterMap Pending.settingUp? = Trace.registrations t.effects := by
    rw [registrations_effects, events, List.filterMap_eq_nil_iff]
    exact ⟨supplies_effects receipts, fun p h => settingUp?_of_isLate (late p h)⟩
  cases course with
  | supply stored => exact .inr ⟨_, _, rfl, rfl, rfl, rfl⟩
  | supplyLate gone => exact .inr ⟨_, _, rfl, rfl, rfl, rfl⟩
  | tearDown report left =>
    exact .inl (settled (tearDown_receipts ..) (tearDown_registered ..)
      (tearDown_late r report left))
  | reject e found => exact .inl (settled rfl rfl (stop_late rfl (Signal.late_done _)))
  | cancel found => exact .inl (settled rfl rfl (stop_late rfl (Signal.late_done _)))
  | fire payload isFinal found alone last =>
    exact .inl (settled rfl rfl (stop_late rfl (delivery_late r _ payload)))
  | deliver payload found alone stays => exact .inl (settled rfl rfl (delivery_late r _ payload))
  | callBack listener payload result => exact .inl (settled rfl rfl (delivery_late r _ payload))
  | fail listener e => exact .inl (settled rfl rfl (evaluated_late r listener e))
  | _ => exact .inl ⟨rfl, rfl⟩

theorem Act.custody {before now : Trace} {r s : Registry} (act : Act r now s)
    (kept : Custody before.ledger r.listeners r.handles)
    (fresh : before.registrations.Disjoint now.registrations)
    (first : (before.supplies.map Prod.fst).Disjoint (now.supplies.map Prod.fst))
    (due : ∀ id handle, (id, handle) ∈ now.supplies → id ∈ before.registrations) :
    Custody (Trace.ledger (before ++ now)) s.listeners s.handles := by
  rw [Trace.ledger_append]
  cases act with
  | plain h => rwa [Trace.ledger_of_isPlain h, Ledger.append_empty]
  | edit change =>
    rw [editDirectory_listeners, editDirectory_handles]
    exact kept.nothing
  | assign given => exact kept.nothing
  | store target vacant bare =>
    exact kept.store vacant bare fun h => fresh h (List.mem_singleton.2 rfl)
  | ignore name => exact kept.nothing
  | fail id message => exact kept.nothing
  | deliver found alone stays => exact kept.nothing
  | handOver payload isFinal found handled => exact kept.nothing
  | supply stored =>
    obtain ⟨l, found⟩ := Option.isSome_iff_exists.1 stored
    refine kept.supply found (due _ _ (List.mem_singleton.2 rfl)) fun handle h => ?_
    exact first (List.mem_map_of_mem h) (List.mem_singleton.2 rfl)
  | @supplyLate id gone =>
    have absent := contains_eq_false_iff.1 gone
    exact kept.supplyLate absent (due _ _ (List.mem_singleton.2 rfl))
  | @remove l id reason found unfired =>
    rw [Trace.ledger_removed]
    exact kept.remove found
  | @fire l id isFinal found alone last =>
    rw [Trace.ledger_dispatched, Trace.ledger_removed]
    exact kept.remove found

theorem onlyOwed_stopping {before first : Trace} {r : Registry} {l : Listener} {id : ListenerId}
    (kept : Custody before.ledger r.listeners r.handles) (h : before.OnlyOwed)
    (found : r.listeners.find? id = some l) (quiet : first.stops = [])
    (gone : id ∈ first.removals) : Trace.OnlyOwed (before ++ (first ++ l.stopping)) := by
  rw [← List.append_assoc]
  refine (h.append quiet).stopping l fun handle hl => ⟨id, ?_, ?_⟩
  · rw [Trace.supplies_append]
    exact List.mem_append_left _ (kept.held id l handle found hl)
  · rw [Trace.removals_append]
    exact List.mem_append_right _ gone

theorem Act.onlyOwed {before now : Trace} {r s : Registry} (act : Act r now s)
    (kept : Custody before.ledger r.listeners r.handles)
    (due : ∀ id handle, (id, handle) ∈ now.supplies → id ∈ before.registrations)
    (h : before.OnlyOwed) : Trace.OnlyOwed (before ++ now) := by
  cases act with
  | plain plain => exact h.append (congrArg Ledger.spent (Trace.ledger_of_isPlain plain))
  | @supplyLate id gone =>
    have absent := contains_eq_false_iff.1 gone
    have departed := kept.departed id (due _ _ (List.mem_singleton.2 rfl)) absent
    rw [List.append_cons]
    refine Trace.OnlyOwed.asked_stop (h.append rfl) ⟨id, ?_, ?_⟩
    · rw [Trace.supplies_append]
      exact List.mem_append_right _ (List.mem_singleton.2 rfl)
    · rw [Trace.removals_append]
      exact List.mem_append_left _ departed
  | @remove l id reason found unfired =>
    have hfirst : Trace.stops [.published (.removed id reason)] = [] := rfl
    exact onlyOwed_stopping kept h found hfirst (List.mem_singleton.2 rfl)
  | @fire l id isFinal found alone last =>
    have hfirst : Trace.stops
        [.published (.dispatched id isFinal), .published (.removed id .fired)] = [] := rfl
    exact onlyOwed_stopping kept h found hfirst (List.mem_singleton.2 rfl)
  | _ => exact h.append rfl

theorem Acts.custody {before seen : Trace} {r s : Registry} (acts : Acts r seen s)
    (kept : Custody before.ledger r.listeners r.handles) (owed : before.OnlyOwed)
    (fresh : (Trace.registrations (before ++ seen)).Nodup)
    (once : ((Trace.supplies (before ++ seen)).map Prod.fst).Nodup)
    (due : ∀ id handle, (id, handle) ∈ seen.supplies → id ∈ before.registrations) :
    Custody (Trace.ledger (before ++ seen)) s.listeners s.handles ∧
      Trace.OnlyOwed (before ++ seen) := by
  -- What an act needs of the whole trace holds of the part up to that act.
  induction acts generalizing before with
  | nil => simpa using ⟨kept, owed⟩
  | @cons r s t now later first rest ih =>
    rw [← List.append_assoc] at fresh once ⊢
    have dueNow : ∀ id handle, (id, handle) ∈ now.supplies → id ∈ before.registrations := by
      intro id handle h
      refine due id handle ?_
      rw [Trace.supplies_append]
      exact List.mem_append_left _ h
    have hfresh : before.registrations.Disjoint now.registrations := by
      rw [Trace.registrations_append, Trace.registrations_append] at fresh
      exact List.disjoint_of_nodup_append fresh.of_append_left
    have hfirst : (before.supplies.map Prod.fst).Disjoint (now.supplies.map Prod.fst) := by
      rw [Trace.supplies_append, Trace.supplies_append, List.map_append, List.map_append] at once
      exact List.disjoint_of_nodup_append once.of_append_left
    refine ih (first.custody kept hfresh hfirst dueNow) (first.onlyOwed kept dueNow owed) fresh once
      fun id handle h => ?_
    rw [Trace.registrations_append]
    refine List.mem_append_left _ (due id handle ?_)
    rw [Trace.supplies_append]
    exact List.mem_append_right _ h

end Registry

namespace Machine

/-- A listener is supplied a handle, or awaited to be, no more often than it was registered. -/
def SetsUpOnce (trace : Trace) (m : Machine) : Prop :=
  ∀ id, (trace.supplies.map Prod.fst).count id +
    (m.pending.filterMap Pending.settingUp?).count id ≤ trace.registrations.count id

theorem SetsUpOnce.step {before seen : Trace} {m m' : Machine} {move : Move}
    (inv : SetsUpOnce before m) (awaits : m.AwaitsIdsOutside)
    (hmove : m.step move = some (m', seen)) :
    SetsUpOnce (before ++ seen) m' ∧
      ∀ id handle, (id, handle) ∈ seen.supplies → id ∈ before.registrations := by
  rcases awaits.step hmove with ⟨_, rfl, rfl⟩ | ⟨cause, others, t, hpending, course, rfl, rfl⟩
  · rw [List.append_nil]
    exact ⟨inv, nofun⟩
  · have hinv (id : ListenerId) : (before.supplies.map Prod.fst).count id +
        ((cause.pending ++ others).filterMap Pending.settingUp?).count id ≤
          before.registrations.count id := hpending ▸ inv id
    simp only [List.filterMap_append, List.count_append] at hinv
    rcases course.supplies_cases with ⟨hnone, hawaited⟩ | ⟨id, handle, hcause, hone, hreg, hnext⟩
    -- Each new registration is awaited once.
    · constructor
      · intro id
        simp only [Trace.supplies_append, Trace.registrations_append, cause.supplies_cons,
          cause.registrations_cons, hnone, hawaited, List.append_nil, List.filterMap_append,
          List.count_append]
        have := hinv id
        omega
      · intro id handle h
        rw [cause.supplies_cons, hnone] at h
        cases h
    -- The set-up that was awaited is now a supply.
    · constructor
      · intro other
        simp only [Trace.supplies_append, Trace.registrations_append, cause.supplies_cons,
          cause.registrations_cons, hone, hreg, hnext, List.append_nil, List.filterMap_append,
          List.map_append, List.map_cons, List.map_nil, List.nil_append, List.count_append]
        have := hinv other
        rw [hcause] at this
        omega
      · intro other handle h
        rw [cause.supplies_cons, hone] at h
        cases List.mem_singleton.1 h
        have := hinv id
        rw [hcause, List.count_singleton_self] at this
        exact List.count_pos_iff.1 (by omega)

variable {start m : Machine} {moves : List Move} {trace : Trace}

theorem SetsUpOnce.run {before : Trace} (inv : SetsUpOnce before start)
    (awaits : start.AwaitsIdsOutside) (history : start.run moves = some (m, trace)) :
    SetsUpOnce (before ++ trace) m := by
  have h := run_preserves (fun trace m => m.AwaitsIdsOutside ∧ SetsUpOnce trace m)
    (fun inv hmove => ⟨inv.1.preserved hmove, (inv.2.step inv.1 hmove).1⟩) ⟨awaits, inv⟩ history
  exact h.2

theorem SetsUpOnce.nodup (inv : SetsUpOnce trace m) (fresh : trace.registrations.Nodup) :
    (trace.supplies.map Prod.fst).Nodup := by
  rw [List.nodup_iff_count_le_one] at fresh ⊢
  intro id
  have := inv id
  have := fresh id
  omega

theorem IsNew.custody_of_nodup (new : start.IsNew) (history : start.run moves = some (m, trace))
    (nodup : trace.registrations.Nodup) :
    Custody trace.ledger m.registry.listeners m.registry.handles ∧ trace.OnlyOwed := by
  -- Custody holds only of a trace without repeated ids, and so of each part of this one.
  have inv := new.invariant (fun trace m => SetsUpOnce trace m ∧ (trace.registrations.Nodup →
    Custody trace.ledger m.registry.listeners m.registry.handles ∧ trace.OnlyOwed)) history ?_ ?_
  · exact inv.2 nodup
  · constructor
    · intro id
      simp [new.pending, Trace.supplies]
    · intro _
      rw [new.listeners, new.handles]
      exact ⟨.empty, fun before handle after h => by simp at h⟩
  · intro before m move m' seen inv awaits hmove
    obtain ⟨once, due⟩ := inv.1.step awaits hmove
    refine ⟨once, fun nodup => ?_⟩
    have earlier : before.registrations.Nodup := by
      rw [Trace.registrations_append] at nodup
      exact nodup.of_append_left
    obtain ⟨kept, owed⟩ := inv.2 earlier
    exact (awaits.acts hmove).custody kept owed nodup (once.nodup nodup) due

theorem IsNew.custody (new : start.IsNew) (history : start.run moves = some (m, trace))
    (fresh : start.registry.ids.NeverRepeats trace.allocations) :
    Custody trace.ledger m.registry.listeners m.registry.handles ∧ trace.OnlyOwed :=
  new.custody_of_nodup history (new.registrations_nodup history fresh)

theorem IsNew.count_stops_of_gone (new : start.IsNew) (history : start.run moves = some (m, trace))
    (fresh : start.registry.ids.NeverRepeats trace.allocations)
    {id : ListenerId} {handle : CancelHandle} (gone : m.registry.contains id = false)
    (supplied : .received (.handle id handle) ∈ trace) : trace.stops.count handle = 1 := by
  have settled := (new.custody history fresh).1.settled id handle (Trace.mem_supplies.2 supplied)
  rwa [Registry.contains_eq_false_iff.1 gone] at settled

end Machine

end ScriptEvents
