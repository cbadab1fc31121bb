import ScriptEvents.Proofs.IdSource.Distinct
import ScriptEvents.Proofs.Lifecycle.Roll
/-!
Departures are for good: where no id is given twice, nothing is ever stored again under the id of a
removed listener, and calls about it pass without a trace.
-/
namespace ScriptEvents

namespace Trace

theorem mem_registrations {trace : Trace} {id : ListenerId} {name : String} {once : Bool}
    (h : .published (.registered id name once) ∈ trace) : id ∈ trace.registrations :=
  List.mem_filterMap.2 ⟨_, mem_log.2 h, rfl⟩

end Trace

namespace Machine

variable {start m : Machine} {moves : List Move} {before after : Trace} {id : ListenerId}
  {reason : RemovalReason}

theorem step_cancel_of_absent (absent : m.registry.listeners.find? id = none) :
    m.step (.call (.cancel id)) =
      some (m, [.called (.cancel id), .returned (.cancelled false)]) := by
  have hturn : m.registry.cancel id = m.registry.publish [] (.done (.cancelled false)) := by
    simp only [Registry.cancel, absent]
  simp only [step, mayCall, Registry.start, hturn, if_true]
  rfl

theorem step_dispatch_of_absent (absent : m.registry.listeners.find? id = none)
    (payload : HostValue) (isFinal : Bool) :
    m.step (.call (.dispatch id payload isFinal)) =
      some (m, [.called (.dispatch id payload isFinal), .returned (.delivered (.ok none))]) := by
  have hturn : m.registry.dispatch id payload isFinal =
      m.registry.publish [] (.done (.delivered (.ok none))) := by
    simp only [Registry.dispatch, absent]
  simp only [step, mayCall, Registry.start, hturn, if_true]
  rfl

theorem not_mem_registrations_after (new : start.IsNew)
    (history : start.run moves = some (m, before ++ .published (.removed id reason) :: after))
    (once : (Trace.registrations (before ++ .published (.removed id reason) :: after)).Nodup) :
    id ∉ after.registrations := by
  have present : (Roll.replay before.log id).isSome = true := by
    have split : Trace.log (before ++ .published (.removed id reason) :: after) =
        before.log ++ .removed id reason :: after.log := Trace.log_append ..
    exact new.fits history split
  have earlier : id ∈ before.registrations := by
    by_contra h
    rw [Roll.replay, Roll.foldl_see_eq_none rfl h] at present
    cases present
  rw [Trace.registrations_append, List.nodup_append] at once
  intro later
  exact once.2.2 id earlier id later rfl

/-- After the removal the roll has no place for the id, however the log goes on. -/
theorem replay_after_removal {x : List LifecycleEvent} (unregistered : id ∉ after.registrations)
    (part : ∃ y, after.log = x ++ y) :
    Roll.replay (before.log ++ .removed id reason :: x) id = none := by
  obtain ⟨y, hy⟩ := part
  rw [Roll.replay, List.foldl_append, List.foldl_cons]
  refine Roll.foldl_see_eq_none (by simp [Roll.see]) fun h => unregistered ?_
  rw [Trace.registrations, hy, List.filterMap_append]
  exact List.mem_append_left _ h

theorem not_fits_after_removal (new : start.IsNew)
    (history : start.run moves = some (m, before ++ .published (.removed id reason) :: after))
    (unregistered : id ∉ after.registrations) {e : LifecycleEvent}
    (h : .published e ∈ after) : ∃ v : Roll, v id = none ∧ e.Fits v := by
  obtain ⟨x, y, hsplit⟩ := List.append_of_mem (Trace.mem_log.2 h)
  have split : Trace.log (before ++ .published (.removed id reason) :: after) =
      (before.log ++ .removed id reason :: x) ++ e :: y := by
    rw [Trace.log_append, Trace.log_published, hsplit, List.append_assoc]
    rfl
  exact ⟨_, replay_after_removal unregistered ⟨_, hsplit⟩, new.fits history split⟩

theorem removed_id_is_dead (new : start.IsNew)
    (history : start.run moves = some (m, before ++ .published (.removed id reason) :: after))
    (fresh : start.registry.ids.NeverRepeats
      (Trace.allocations (before ++ .published (.removed id reason) :: after))) :
    m.registry.contains id = false ∧ m.registry.snapshot? id = none ∧
      m.step (.call (.cancel id)) =
        some (m, [.called (.cancel id), .returned (.cancelled false)]) ∧
      (∀ payload isFinal, m.step (.call (.dispatch id payload isFinal)) =
        some (m, [.called (.dispatch id payload isFinal), .returned (.delivered (.ok none))])) ∧
      (∀ name once, .published (.registered id name once) ∉ after) ∧
      (∀ isFinal, .published (.dispatched id isFinal) ∉ after) ∧
      ∀ again, .published (.removed id again) ∉ after := by
  have unregistered := not_mem_registrations_after new history (new.registrations_nodup history fresh)
  have gone : m.registry.roll id = none := by
    rw [← new.replay_log history, Trace.log_append, Trace.log_published]
    exact replay_after_removal unregistered ⟨[], (List.append_nil _).symm⟩
  have absent : m.registry.listeners.find? id = none := by
    simpa [Registry.roll] using gone
  refine ⟨Registry.roll_eq_none_iff.1 gone, by simp [Registry.snapshot?, absent],
    step_cancel_of_absent absent, step_dispatch_of_absent absent, ?_, ?_, ?_⟩
  · exact fun name once h => unregistered (Trace.mem_registrations h)
  · intro isFinal h
    obtain ⟨v, hv, fits⟩ := not_fits_after_removal new history unregistered h
    simp [LifecycleEvent.Fits, hv] at fits
  · intro again h
    obtain ⟨v, hv, fits⟩ := not_fits_after_removal new history unregistered h
    simp [LifecycleEvent.Fits, hv] at fits

theorem removed_id_is_dead_earlyDelivery :
    ∃ m before after, counting.IsNew ∧
      counting.run earlyDelivery = some (m, before ++ .published (.removed 7 .fired) :: after) ∧
      counting.registry.ids.NeverRepeats
        (Trace.allocations (before ++ .published (.removed 7 .fired) :: after)) ∧
      m.registry.contains 7 = false ∧ m.registry.snapshot? 7 = none ∧
      m.step (.call (.cancel 7)) =
        some (m, [.called (.cancel 7), .returned (.cancelled false)]) ∧
      (∀ payload isFinal, m.step (.call (.dispatch 7 payload isFinal)) =
        some (m, [.called (.dispatch 7 payload isFinal), .returned (.delivered (.ok none))])) ∧
      (∀ name once, .published (.registered 7 name once) ∉ after) ∧
      (∀ isFinal, .published (.dispatched 7 isFinal) ∉ after) ∧
      ∀ again, .published (.removed 7 again) ∉ after := by
  obtain ⟨m, history⟩ := counting_run_earlyDelivery
  have split : earlyDeliveryTrace = earlyDeliveryTrace.take 8 ++
      .published (.removed 7 .fired) :: earlyDeliveryTrace.drop 9 := rfl
  have fresh := earlyDelivery_neverRepeats
  rw [split] at history fresh
  exact ⟨m, _, _, counting_isNew, history, fresh, removed_id_is_dead counting_isNew history fresh⟩

end Machine

end ScriptEvents
