import Mathlib.Algebra.GroupWithZero.Nat
import ScriptEvents.Proofs.Lifecycle.Delivery
/-!
Reckoning: what has become of the events published since a receiver subscribed. It has obtained them,
was told that it skipped them, or has them yet to read. Besides, with every lag that a read reports
it loses as many events as the bus retains, and those are in no count.
-/
namespace ScriptEvents

def LifecycleError.skipped? : LifecycleError → Option Nat
  | lagged count => some count
  | receiveFailed _ => none

def skippedBy? : Except LifecycleError (Option LifecycleEvent) → Option Nat
  | .error e => e.skipped?
  | .ok _ => none

namespace LifecycleBus

variable {b : LifecycleBus} {r : LifecycleReceiver}

theorem receive_reckons (b : LifecycleBus) (r : LifecycleReceiver) : (b.pending r).length =
    (b.receive r).2.toOption.join.toList.length + (skippedBy? (b.receive r).2).toList.sum +
      (skippedBy? (b.receive r).2).toList.length * b.retention +
        (b.pending (b.receive r).1).length := by
  rcases b.receive_cases r with ⟨lagged, hreceive⟩ | ⟨e, -, hpending, hreceive⟩ |
    ⟨hnone, hreceive⟩
  · rw [hreceive, pending_subscribe]
    simp [skippedBy?, LifecycleError.skipped?, Except.toOption]
    omega
  · rw [hreceive, hpending]
    simp [skippedBy?, Except.toOption]
    omega
  · rw [hreceive, hnone]
    cases b.isOpen <;> simp [skippedBy?, LifecycleError.skipped?, Except.toOption]

theorem readAll_of_lagged (far : b.retention < (b.pending r).length) : (b.readAll r).2.2 =
    some (.lagged ((b.pending r).length - b.retention)) := by
  rcases b.receive_cases r with ⟨-, hreceive⟩ | ⟨_, near, -⟩ | ⟨hnone, -⟩
  · unfold readAll readUpTo
    rw [hreceive]
  · omega
  · rw [hnone] at far
    cases far

end LifecycleBus

namespace Exchange

def Answer.skipped? : Answer → Option Nat
  | received result | polled result => skippedBy? result
  | done | noReceiver | drained _ => none

def skips (x : Exchange) (name : String) (steps : List Step) : List Nat :=
  (x.answersTo name steps).filterMap Answer.skipped?

/-- How many of the events published a receiver has not come to yet. -/
def backlog (x : Exchange) (name : String) : Nat :=
  ((x.receivers.find? name).map fun r => (x.bus.pending r).length).getD 0

def receivable (x : Exchange) (name : String) : List LifecycleEvent := x.obtained name [.drain name]

/-- No drain of the receiver of that name meets a lag, which it would not report. -/
def DrainsClear (x : Exchange) (name : String) (steps : List Step) : Prop :=
  ∀ before after r count, steps = before ++ .drain name :: after →
    (x.advance before).receivers.find? name = some r →
      ((x.advance before).bus.readAll r).2.2 ≠ some (.lagged count)

variable {x : Exchange} {s : Step} {steps : List Step} {name : String}
  {queue : List LifecycleEvent}

theorem skips_cons (x : Exchange) (name : String) (s : Step) (steps : List Step) :
    x.skips name (s :: steps) = x.skips name [s] ++ (x.step s).1.skips name steps := by
  have hnil : (x.step s).1.answersTo name [] = [] := rfl
  unfold skips
  rw [answersTo_cons, answersTo_cons x name s [], hnil, List.append_nil, List.filterMap_append]

theorem skips_of_receiver? (h : s.receiver? = some name) :
    x.skips name [s] = (x.step s).2.skipped?.toList := by
  unfold skips
  rw [answersTo_cons, if_pos h]
  cases hskipped : (x.step s).2.skipped? <;> simp [hskipped, answersTo, run]

theorem skips_of_other (h : s.receiver? ≠ some name) : x.skips name [s] = [] := by
  unfold skips
  rw [answersTo_cons, if_neg h]
  rfl

theorem Awaits.backlog_eq (awaits : x.Awaits name queue) : x.backlog name = queue.length := by
  obtain ⟨r, found, -, rfl⟩ := awaits
  unfold backlog
  rw [found]
  rfl

theorem drainsClear_nil (x : Exchange) (name : String) : x.DrainsClear name [] :=
  fun _ _ _ _ split => by simp at split

theorem drainsClear_cons : x.DrainsClear name (s :: steps) ↔
    (s = .drain name → ∀ r, x.receivers.find? name = some r →
      ∀ count, (x.bus.readAll r).2.2 ≠ some (.lagged count)) ∧
    (x.step s).1.DrainsClear name steps := by
  constructor
  · intro clear
    refine ⟨?_, fun before after r count split => ?_⟩
    · rintro rfl r found count
      exact clear [] steps r count rfl found
    · exact clear (s :: before) after r count (by rw [split]; rfl)
  · rintro ⟨now, later⟩ before after r count split found
    cases before with
    | nil =>
      cases split
      exact now rfl r found count
    | cons _ before =>
      cases split
      exact later before after r count rfl found

theorem Awaits.near_of_clear (awaits : x.Awaits name queue)
    (clear : ∀ r, x.receivers.find? name = some r →
      ∀ count, (x.bus.readAll r).2.2 ≠ some (.lagged count)) :
    queue.length ≤ x.bus.retention := by
  obtain ⟨r, found, -, rfl⟩ := awaits
  refine Nat.le_of_not_lt fun far => ?_
  exact clear r found _ (LifecycleBus.readAll_of_lagged far)

/-- What a step hands over, what it reports as skipped and what it loses with that, and what it
leaves to read make up what was awaited and is published. -/
theorem Awaits.balance_step (awaits : x.Awaits name queue) (spares : s.Spares name)
    (clear : s = .drain name → queue.length ≤ x.bus.retention) :
    ∃ next, (x.step s).1.Awaits name next ∧
      queue.length + (x.published [s]).length = (x.obtained name [s]).length +
        (x.skips name [s]).sum + (x.skips name [s]).length * x.bus.retention + next.length := by
  by_cases own : s.receiver? = some name
  · have reads := spares.reads own
    rw [published_of_reads x reads, obtained_of_receiver? own, skips_of_receiver? own]
    obtain ⟨r, found, placed, rfl⟩ := awaits
    cases s with
    | tryReceive other | poll other =>
      cases beq_iff_eq.1 reads
      have taken := LifecycleBus.receive_takes placed
      have reckoned := x.bus.receive_reckons r
      simp only [Exchange.step, read_of_find? found]
      refine ⟨x.bus.pending (x.bus.receive r).1, ⟨_, ?_, taken.placed, rfl⟩, ?_⟩
      · rw [Dictionary.find?_insert, if_pos rfl]
      · exact reckoned
    | drain other =>
      cases beq_iff_eq.1 reads
      have drained := LifecycleBus.drain_eq placed
      rw [if_pos (clear rfl)] at drained
      simp only [Exchange.step, read_of_find? found, drained]
      refine ⟨[], ⟨x.bus.subscribe, ?_, Nat.le_refl _, LifecycleBus.pending_subscribe _⟩, ?_⟩
      · rw [Dictionary.find?_insert, if_pos rfl]
      · simp [Answer.events, Answer.skipped?]
    | _ => cases reads
  · obtain ⟨next, hnext, -, complete, -⟩ := awaits.step spares
    have kept := congrArg List.length (complete fun reads => ?_)
    · rw [List.length_append, List.length_append] at kept
      rw [skips_of_other own]
      refine ⟨next, hnext, ?_⟩
      simp
      omega
    · cases s with
      | tryReceive other | poll other | drain other =>
        exact absurd (congrArg some (beq_iff_eq.1 reads)) own
      | _ => cases reads

theorem Awaits.balance (awaits : x.Awaits name queue) (spares : ∀ s ∈ steps, s.Spares name)
    (clear : x.DrainsClear name steps) :
    ∃ next, (x.advance steps).Awaits name next ∧
      queue.length + (x.published steps).length = (x.obtained name steps).length +
        (x.skips name steps).sum + (x.skips name steps).length * x.bus.retention +
          next.length := by
  induction steps generalizing x queue with
  | nil =>
    refine ⟨queue, awaits, ?_⟩
    have hskips : x.skips name [] = [] := rfl
    simp [hskips]
  | cons s steps ih =>
    rw [List.forall_mem_cons] at spares
    rw [drainsClear_cons] at clear
    obtain ⟨middle, hmiddle, now⟩ :=
      awaits.balance_step spares.1 fun drains => awaits.near_of_clear (clear.1 drains)
    obtain ⟨next, hnext, later⟩ := ih hmiddle spares.2 clear.2
    refine ⟨next, hnext, ?_⟩
    rw [retention_step] at later
    rw [published_cons, obtained_cons, skips_cons, List.length_append, List.length_append,
      List.sum_append, List.length_append, Nat.add_mul]
    omega

theorem Awaits.length_receivable (awaits : x.Awaits name queue) :
    (x.receivable name).length = if queue.length ≤ x.bus.retention then queue.length else 0 := by
  obtain ⟨r, found, placed, rfl⟩ := awaits
  have own : Step.receiver? (.drain name) = some name := rfl
  unfold receivable
  rw [obtained_of_receiver? own]
  simp only [Exchange.step, read_of_find? found, LifecycleBus.drain_eq placed]
  change (if _ then _ else _ : List LifecycleEvent).length = _
  split <;> rfl

/-- The events that the steps publish, by what has become of them for a receiver that had nothing
yet to read. -/
structure Reckons (x : Exchange) (name : String) (steps : List Step) : Prop where
  balance : (x.published steps).length = (x.obtained name steps).length +
    (x.skips name steps).sum + (x.skips name steps).length * x.bus.retention +
      (x.advance steps).backlog name
  receivable : ((x.advance steps).receivable name).length =
    if (x.advance steps).backlog name ≤ x.bus.retention then (x.advance steps).backlog name else 0
  -- The counts make up for what was not received only if there are none, and none is due.
  exact_iff : (x.published steps).length = (x.obtained name steps).length +
      (x.skips name steps).sum + ((x.advance steps).receivable name).length ↔
    x.skips name steps = [] ∧ (x.advance steps).backlog name ≤ x.bus.retention

theorem Awaits.reckoning (awaits : x.Awaits name []) (retains : 1 ≤ x.bus.retention)
    (spares : ∀ s ∈ steps, s.Spares name) (clear : x.DrainsClear name steps) :
    x.Reckons name steps := by
  obtain ⟨next, hnext, balance⟩ := awaits.balance spares clear
  have receivable := hnext.length_receivable
  rw [List.length_nil, Nat.zero_add, ← hnext.backlog_eq] at balance
  rw [← hnext.backlog_eq, retention_advance] at receivable
  refine ⟨balance, receivable, ?_⟩
  rw [balance, receivable]
  constructor
  · intro right
    cases hskips : x.skips name steps with
    | nil =>
      rw [hskips] at right
      refine ⟨rfl, ?_⟩
      split at right
      next near => exact near
      next far =>
        simp only [List.sum_nil, List.length_nil, Nat.zero_mul] at right
        omega
    | cons count rest =>
      rw [hskips, List.length_cons, Nat.succ_mul] at right
      split at right <;> omega
  · rintro ⟨hskips, near⟩
    rw [hskips, if_pos near, List.length_nil, Nat.zero_mul, Nat.add_zero]

theorem lag_loses_retained {capacity : Nat} {before after : List Step} (unclosed : .close ∉ before)
    (spares : ∀ s ∈ after, s.Spares name)
    (clear : (subscribed capacity before name).DrainsClear name after) :
    (subscribed capacity before name).Reckons name after := by
  refine (subscribed_awaits capacity name unclosed).1.reckoning ?_ spares clear
  unfold subscribed
  rw [retention_advance]
  exact Nat.le_trans (Nat.le_max_left 1 capacity) (LifecycleBus.retention_ofCapacity capacity).le

/-- Two events can be read of a bus that is asked to keep two. The receiver is five events behind
when it polls, two when it drains, and three when it reads again. -/
def overtaken : List Step :=
  [.publish (.ignored "a") 1, .tryReceive "r", .publishRange 0 5, .subscribe "s", .poll "r",
    .publishRange 5 7, .drain "r", .poll "r", .publishRange 7 10, .drain "s", .tryReceive "r",
    .publishRange 10 11]

theorem overtaken_drainsClear :
    (subscribed 2 [.publish (.ignored "a") 1] "r").DrainsClear "r" overtaken := by
  simp only [overtaken, drainsClear_cons, drainsClear_nil, reduceCtorEq, Step.drain.injEq,
    String.reduceEq, false_implies, true_implies, true_and, and_true]
  intro r found count
  cases found
  nofun

theorem lag_loses_retained_overtaken :
    .close ∉ [Step.publish (.ignored "a") 1] ∧ (∀ s ∈ overtaken, s.Spares "r") ∧
      (subscribed 2 [.publish (.ignored "a") 1] "r").DrainsClear "r" overtaken ∧
      (subscribed 2 [.publish (.ignored "a") 1] "r").skips "r" overtaken = [3, 1] ∧
      (subscribed 2 [.publish (.ignored "a") 1] "r").Reckons "r" overtaken := by
  have unclosed : .close ∉ [Step.publish (.ignored "a") 1] := by simp
  have spares : ∀ s ∈ overtaken, s.Spares "r" := by simp [overtaken, Step.Spares]
  exact ⟨unclosed, spares, overtaken_drainsClear, rfl,
    lag_loses_retained unclosed spares overtaken_drainsClear⟩

/-- Three events overtake a receiver of a bus that retains one: two are reported as skipped and the
third is lost as well. -/
theorem skipped_count_falls_short :
    (∀ s ∈ [Step.publishRange 0 3, .tryReceive "r"], s.Spares "r") ∧
      (subscribed 1 [] "r").DrainsClear "r" [.publishRange 0 3, .tryReceive "r"] ∧
      (subscribed 1 [] "r").skips "r" [.publishRange 0 3, .tryReceive "r"] = [2] ∧
      ((subscribed 1 [] "r").published [.publishRange 0 3, .tryReceive "r"]).length ≠
        ((subscribed 1 [] "r").obtained "r" [.publishRange 0 3, .tryReceive "r"]).length +
          ((subscribed 1 [] "r").skips "r" [.publishRange 0 3, .tryReceive "r"]).sum +
          (((subscribed 1 [] "r").advance [.publishRange 0 3, .tryReceive "r"]).receivable
            "r").length := by
  refine ⟨by simp [Step.Spares], ?_, rfl, ?_⟩
  · simp [drainsClear_cons, drainsClear_nil]
  · decide

end Exchange

end ScriptEvents
