import ScriptEvents.Lifecycle
import ScriptEvents.Proofs.Lifecycle.Reception
/-!
Delivery: what a receiver obtains of the events published since it subscribed, whatever is published,
read, dropped and closed in between, and whatever the other receivers do.
-/
namespace ScriptEvents

namespace Exchange

namespace Step

def receiver? : Step → Option String
  | subscribe name | unsubscribe name | tryReceive name | poll name | drain name => some name
  | publish .. | publishRange .. | close => none

def reads (name : String) : Step → Bool
  | tryReceive other | poll other | drain other => other == name
  | _ => false

def concerns (name : String) (s : Step) : Bool := s.receiver?.all (· == name)

def isClose : Step → Bool
  | close => true
  | _ => false

def events : Step → List LifecycleEvent
  | publish event times => .replicate times event
  | publishRange first last => dispatches first last
  | _ => []

end Step

def Answer.events : Answer → List LifecycleEvent
  | received result | polled result => result.toOption.join.toList
  | drained events => events
  | done | noReceiver => []

def advance (x : Exchange) (steps : List Step) : Exchange :=
  steps.foldl (fun x s => (x.step s).1) x

def answersTo (x : Exchange) (name : String) (steps : List Step) : List Answer :=
  (steps.zip (x.run steps)).filterMap fun (s, answer, _) =>
    if s.receiver? = some name then some answer else none

def obtained (x : Exchange) (name : String) (steps : List Step) : List LifecycleEvent :=
  (x.answersTo name steps).flatMap Answer.events

def published (x : Exchange) (steps : List Step) : List LifecycleEvent :=
  if x.bus.isOpen then (steps.takeWhile (!·.isClose)).flatMap Step.events else []

variable {x y : Exchange} {s : Step} {steps rest : List Step} {name : String}
  {queue : List LifecycleEvent}

theorem advance_append (x : Exchange) (steps rest : List Step) :
    x.advance (steps ++ rest) = (x.advance steps).advance rest :=
  List.foldl_append

theorem run_cons (x : Exchange) (s : Step) (steps : List Step) : x.run (s :: steps) =
    ((x.step s).2, (x.step s).1.subscribers?) :: (x.step s).1.run steps := rfl

theorem answersTo_cons (x : Exchange) (name : String) (s : Step) (steps : List Step) :
    x.answersTo name (s :: steps) =
      (if s.receiver? = some name then [(x.step s).2] else []) ++
        (x.step s).1.answersTo name steps := by
  unfold answersTo
  rw [run_cons, List.zip_cons_cons, List.filterMap_cons]
  by_cases h : s.receiver? = some name
  · simp only [h, ↓reduceIte, List.singleton_append]
  · simp only [h, ↓reduceIte, List.nil_append]

@[simp] theorem obtained_nil (x : Exchange) (name : String) : x.obtained name [] = [] := rfl

theorem obtained_cons (x : Exchange) (name : String) (s : Step) (steps : List Step) :
    x.obtained name (s :: steps) = x.obtained name [s] ++ (x.step s).1.obtained name steps := by
  have hnil : (x.step s).1.answersTo name [] = [] := rfl
  unfold obtained
  rw [answersTo_cons, answersTo_cons x name s [], hnil, List.append_nil, List.flatMap_append]

theorem obtained_append (x : Exchange) (name : String) (steps rest : List Step) :
    x.obtained name (steps ++ rest) =
      x.obtained name steps ++ (x.advance steps).obtained name rest := by
  induction steps generalizing x with
  | nil => rfl
  | cons s steps ih =>
    rw [List.cons_append, obtained_cons, ih, obtained_cons x name s steps, List.append_assoc]
    rfl

theorem obtained_of_receiver? (h : s.receiver? = some name) :
    x.obtained name [s] = (x.step s).2.events := by
  unfold obtained
  rw [answersTo_cons, if_pos h]
  exact List.append_nil _

theorem obtained_of_other (h : s.receiver? ≠ some name) : x.obtained name [s] = [] := by
  unfold obtained
  rw [answersTo_cons, if_neg h]
  rfl

theorem read_bus (x : Exchange) (name : String)
    (attempt : LifecycleReceiver → LifecycleReceiver × Answer) :
    (x.read name attempt).1.bus = x.bus := by
  unfold read
  split <;> rfl

theorem step_bus (x : Exchange) (s : Step) : (x.step s).1.bus =
    if s.isClose then x.bus.close else if x.bus.isOpen then x.bus.publishAll s.events else x.bus := by
  cases s with
  | close => rfl
  | tryReceive name | poll name | drain name =>
    change (x.read name _).1.bus = if x.bus.isOpen then x.bus else x.bus
    rw [read_bus, ite_self]
  | _ => cases h : x.bus.isOpen <;> simp [step, Step.isClose, Step.events, h, LifecycleBus.publishAll]

theorem isOpen_step (x : Exchange) (s : Step) :
    (x.step s).1.bus.isOpen = (x.bus.isOpen && !s.isClose) := by
  rw [step_bus]
  split
  next closes => simp [closes, LifecycleBus.close]
  next stays =>
    split
    · simp [stays]
    · simp [stays]

theorem retention_step (x : Exchange) (s : Step) :
    (x.step s).1.bus.retention = x.bus.retention := by
  rw [step_bus]
  split
  · rfl
  · split
    · exact LifecycleBus.retention_publishAll ..
    · rfl

@[simp] theorem published_nil (x : Exchange) : x.published [] = [] := ite_self []

theorem published_cons (x : Exchange) (s : Step) (steps : List Step) :
    x.published (s :: steps) = x.published [s] ++ (x.step s).1.published steps := by
  unfold published
  rw [isOpen_step]
  cases x.bus.isOpen <;> cases h : s.isClose <;> simp [h]

theorem published_append (x : Exchange) (steps rest : List Step) :
    x.published (steps ++ rest) = x.published steps ++ (x.advance steps).published rest := by
  induction steps generalizing x with
  | nil =>
    rw [published_nil]
    rfl
  | cons s steps ih =>
    rw [List.cons_append, published_cons, ih, published_cons x s steps, List.append_assoc]
    rfl

theorem log_step (x : Exchange) (s : Step) :
    (x.step s).1.bus.log.toList = x.bus.log.toList ++ x.published [s] := by
  rw [step_bus]
  unfold published
  cases x.bus.isOpen <;> cases h : s.isClose <;> simp [h, LifecycleBus.close]

/-- The receiver of that name has these events yet to read. -/
def Awaits (x : Exchange) (name : String) (queue : List LifecycleEvent) : Prop :=
  ∃ r, x.receivers.find? name = some r ∧ r.position ≤ x.bus.log.size ∧ x.bus.pending r = queue

/-- The step does not end what the receiver of that name reads. -/
def Step.Spares (name : String) (s : Step) : Prop := s ≠ subscribe name ∧ s ≠ unsubscribe name

theorem Step.Spares.reads (spares : s.Spares name) (own : s.receiver? = some name) :
    s.reads name = true := by
  cases s with
  | subscribe other => exact absurd (congrArg subscribe (Option.some.inj own)) spares.1
  | unsubscribe other => exact absurd (congrArg unsubscribe (Option.some.inj own)) spares.2
  | tryReceive | poll | drain => exact beq_iff_eq.2 (Option.some.inj own)
  | _ => cases own

theorem Step.concerns_of_receiver? (own : s.receiver? = some name) : s.concerns name = true := by
  unfold concerns
  rw [own]
  exact beq_self_eq_true name

theorem find?_step_of_other (x : Exchange) (other : s.receiver? ≠ some name) :
    (x.step s).1.receivers.find? name = x.receivers.find? name := by
  have elsewhere (n : String) (attempt : LifecycleReceiver → LifecycleReceiver × Answer)
      (hn : some n ≠ some name) :
      (x.read n attempt).1.receivers.find? name = x.receivers.find? name := by
    unfold read
    split
    · rw [Dictionary.find?_insert, if_neg fun h => hn (congrArg some h.symm)]
    · rfl
  cases s with
  | publish | publishRange =>
    dsimp only [step]
    split <;> rfl
  | subscribe n =>
    dsimp only [step]
    split
    · rw [Dictionary.find?_insert, if_neg fun h => other (congrArg some h.symm)]
    · rfl
  | unsubscribe n =>
    dsimp only [step]
    split
    · rw [Dictionary.find?_erase, if_neg fun h => other (congrArg some h.symm)]
    · rfl
  | close => rfl
  | tryReceive n | poll n | drain n => exact elsewhere n _ other

theorem read_of_find? {r : LifecycleReceiver} (found : x.receivers.find? name = some r)
    (attempt : LifecycleReceiver → LifecycleReceiver × Answer) : x.read name attempt =
      ({ x with receivers := x.receivers.insert name (attempt r).1 }, (attempt r).2) := by
  unfold read
  rw [found]

theorem step_of_reads {r : LifecycleReceiver} (found : x.receivers.find? name = some r)
    (placed : r.position ≤ x.bus.log.size) (reads : s.reads name = true) :
    ∃ after, (x.step s).1 = { x with receivers := x.receivers.insert name after } ∧
      x.bus.Takes r after (x.step s).2.events ∧ (s = .drain name → x.bus.pending after = []) := by
  cases s with
  | tryReceive other =>
    cases beq_iff_eq.1 reads
    simp only [step, read_of_find? found]
    exact ⟨_, rfl, LifecycleBus.receive_takes placed, nofun⟩
  | poll other =>
    cases beq_iff_eq.1 reads
    simp only [step, read_of_find? found]
    exact ⟨_, rfl, LifecycleBus.receive_takes placed, nofun⟩
  | drain other =>
    cases beq_iff_eq.1 reads
    simp only [step, read_of_find? found]
    refine ⟨_, rfl, LifecycleBus.drain_takes placed, fun _ => ?_⟩
    rw [LifecycleBus.drain_eq placed]
    exact LifecycleBus.pending_subscribe _
  | _ => cases reads

theorem published_of_reads (x : Exchange) (reads : s.reads name = true) :
    x.published [s] = [] := by
  unfold published
  cases s with
  | tryReceive | poll | drain => exact ite_self []
  | _ => cases reads

theorem Awaits.step (awaits : x.Awaits name queue) (spares : s.Spares name) :
    ∃ next, (x.step s).1.Awaits name next ∧
      (x.obtained name [s] ++ next).Sublist (queue ++ x.published [s]) ∧
      ((s.reads name = true → queue.length ≤ x.bus.retention) →
        x.obtained name [s] ++ next = queue ++ x.published [s]) ∧
      (s = .drain name → next = []) := by
  obtain ⟨r, found, placed, rfl⟩ := awaits
  by_cases own : s.receiver? = some name
  · have reads := spares.reads own
    obtain ⟨after, hstep, taken, drained⟩ := step_of_reads found placed reads
    refine ⟨x.bus.pending after, ⟨after, ?_, ?_, ?_⟩, ?_, fun near => ?_, drained⟩
    · rw [hstep, Dictionary.find?_insert, if_pos rfl]
    · rw [hstep]
      exact taken.placed
    · rw [hstep]
    · rw [obtained_of_receiver? own, published_of_reads x reads, List.append_nil]
      exact taken.inOrder
    · rw [obtained_of_receiver? own, published_of_reads x reads, List.append_nil]
      exact taken.complete (near reads)
  · -- The receiver stays where it is, and what is published comes after all that it awaits.
    have hlog := x.log_step s
    have hpending : (x.step s).1.bus.pending r = x.bus.pending r ++ x.published [s] := by
      unfold LifecycleBus.pending
      rw [hlog, List.drop_append_of_le_length (by simpa using placed)]
    refine ⟨_, ⟨r, (find?_step_of_other x own).trans found, ?_, rfl⟩, ?_, fun _ => ?_, ?_⟩
    · have hsize := congrArg List.length hlog
      simp only [List.length_append, Array.length_toList] at hsize
      omega
    · rw [obtained_of_other own, hpending]
      exact .refl _
    · rw [obtained_of_other own, hpending]
      rfl
    · rintro rfl
      exact absurd rfl own

/-- With so many events yet to read at first, the receiver is never more events behind when it reads
than the bus retains. -/
def KeepsUp (x : Exchange) (name : String) (awaited : Nat) (steps : List Step) : Prop :=
  ∀ before s after, steps = before ++ s :: after → s.reads name = true →
    awaited + (x.published before).length ≤ (x.obtained name before).length + x.bus.retention

theorem Awaits.advance (awaits : x.Awaits name queue) (spares : ∀ s ∈ steps, s.Spares name) :
    ∃ next, (x.advance steps).Awaits name next ∧
      (x.obtained name steps ++ next).Sublist (queue ++ x.published steps) ∧
      (x.KeepsUp name queue.length steps →
        x.obtained name steps ++ next = queue ++ x.published steps) := by
  induction steps generalizing x queue with
  | nil =>
    rw [published_nil, List.append_nil]
    exact ⟨queue, awaits, .refl _, fun _ => rfl⟩
  | cons s steps ih =>
    rw [List.forall_mem_cons] at spares
    obtain ⟨middle, hmiddle, now, nowAll, -⟩ := awaits.step spares.1
    obtain ⟨next, hnext, later, laterAll⟩ := ih hmiddle spares.2
    rw [obtained_cons, published_cons]
    refine ⟨next, hnext, ?_, fun keepsUp => ?_⟩
    · have both := (List.Sublist.append_left later (x.obtained name [s])).trans
        (by simpa only [List.append_assoc] using now.append_right ((x.step s).1.published steps))
      simpa only [List.append_assoc] using both
    · have kept := nowAll fun reads => by simpa using keepsUp [] s steps rfl reads
      have hlength := congrArg List.length kept
      simp only [List.length_append] at hlength
      have rest := laterAll fun before s' after split reads => by
        have := keepsUp (s :: before) s' after (by rw [split]; rfl) reads
        rw [published_cons, obtained_cons, List.length_append, List.length_append] at this
        rw [retention_step]
        omega
      rw [List.append_assoc, rest, ← List.append_assoc, kept, List.append_assoc]

structure Agrees (name : String) (x y : Exchange) : Prop where
  bus : x.bus = y.bus
  receiver : x.receivers.find? name = y.receivers.find? name

theorem Agrees.read (agrees : Agrees name x y)
    (attempt : LifecycleReceiver → LifecycleReceiver × Answer) :
    (x.read name attempt).1.receivers.find? name = (y.read name attempt).1.receivers.find? name ∧
      (x.read name attempt).2 = (y.read name attempt).2 := by
  unfold Exchange.read
  rw [agrees.receiver]
  split
  · simp
  · exact ⟨agrees.receiver, rfl⟩

theorem Agrees.step_own (agrees : Agrees name x y) (own : s.receiver? = some name) :
    (x.step s).1.receivers.find? name = (y.step s).1.receivers.find? name ∧
      (x.step s).2 = (y.step s).2 := by
  cases s with
  | subscribe | unsubscribe =>
    cases own
    dsimp only [step]
    rw [agrees.bus]
    split
    · simp
    · exact ⟨agrees.receiver, rfl⟩
  | tryReceive | poll | drain =>
    cases own
    dsimp only [step]
    rw [agrees.bus]
    exact agrees.read _
  | _ => cases own

theorem Agrees.step (agrees : Agrees name x y) (s : Step) :
    Agrees name (x.step s).1 (y.step s).1 where
  bus := by rw [step_bus, step_bus, agrees.bus]
  receiver := by
    by_cases own : s.receiver? = some name
    · exact (agrees.step_own own).1
    · rw [find?_step_of_other x own, find?_step_of_other y own, agrees.receiver]

theorem Agrees.step_other (agrees : Agrees name x y) (other : s.concerns name ≠ true) :
    Agrees name (x.step s).1 y where
  bus := by
    rw [step_bus, agrees.bus]
    cases s with
    | publish | publishRange | close => exact absurd rfl other
    | _ => exact ite_self _
  receiver := by
    rw [← agrees.receiver]
    exact find?_step_of_other x fun own => other (Step.concerns_of_receiver? own)

theorem Agrees.answersTo (agrees : Agrees name x y) (steps : List Step) :
    x.answersTo name steps = y.answersTo name (steps.filter (·.concerns name)) ∧
      Agrees name (x.advance steps) (y.advance (steps.filter (·.concerns name))) := by
  induction steps generalizing x y with
  | nil => exact ⟨rfl, agrees⟩
  | cons s steps ih =>
    by_cases concerns : s.concerns name = true
    · obtain ⟨hanswers, hadvance⟩ := ih (agrees.step s)
      rw [List.filter_cons_of_pos concerns, answersTo_cons, answersTo_cons, hanswers]
      refine ⟨?_, hadvance⟩
      split
      next own => rw [(agrees.step_own own).2]
      next => rfl
    · obtain ⟨hanswers, hadvance⟩ := ih (agrees.step_other concerns)
      have foreign : s.receiver? ≠ some name := fun own =>
        concerns (Step.concerns_of_receiver? own)
      rw [List.filter_cons_of_neg concerns, answersTo_cons, hanswers, if_neg foreign]
      exact ⟨rfl, hadvance⟩

theorem retention_advance (x : Exchange) (steps : List Step) :
    (x.advance steps).bus.retention = x.bus.retention := by
  induction steps generalizing x with
  | nil => rfl
  | cons s steps ih => exact (ih _).trans (x.retention_step s)

theorem isOpen_advance (x : Exchange) (steps : List Step) :
    (x.advance steps).bus.isOpen = (x.bus.isOpen && !steps.any Step.isClose) := by
  induction steps generalizing x with
  | nil => exact (Bool.and_true _).symm
  | cons s steps ih =>
    refine (ih _).trans ?_
    rw [isOpen_step, List.any_cons, Bool.not_or, Bool.and_assoc]

theorem Step.any_isClose_eq_false (unclosed : .close ∉ steps) : steps.any isClose = false := by
  rw [List.any_eq_false]
  intro s hs closes
  cases s with
  | close => exact unclosed hs
  | _ => cases closes

theorem Awaits.tryReceive (awaits : x.Awaits name []) : (x.step (.tryReceive name)).2 =
    .received (if x.bus.isOpen then .ok none else .error (.receiveFailed "channel closed")) := by
  obtain ⟨r, found, -, hnone⟩ := awaits
  dsimp only [Exchange.step]
  rw [read_of_find? found]
  rcases x.bus.receive_cases r with ⟨lagged, -⟩ | ⟨e, -, hpending, -⟩ | ⟨-, hreceive⟩
  · rw [hnone] at lagged
    cases lagged
  · cases hnone.symm.trans hpending
  · rw [hreceive]

/-- What a receiver obtains by these steps that has nothing yet to read. -/
structure Obtains (x : Exchange) (name : String) (steps : List Step) : Prop where
  inOrder : (x.obtained name steps).Sublist (x.published steps)
  complete : x.KeepsUp name 0 steps → x.obtained name steps <+: x.published steps
  completed (before after : List Step) : x.KeepsUp name 0 steps →
    steps = before ++ .drain name :: after →
      x.obtained name (before ++ [.drain name]) = x.published before
  drained (before quiet after : List Step) : steps = before ++ .drain name :: (quiet ++ after) →
    x.published (before ++ .drain name :: quiet) = x.published before →
      ((x.advance (before ++ .drain name :: quiet)).step (.tryReceive name)).2 = .received
        (if (before ++ quiet).any Step.isClose then .error (.receiveFailed "channel closed")
        else .ok none)

theorem KeepsUp.of_append {awaited : Nat} (keepsUp : x.KeepsUp name awaited (steps ++ rest)) :
    x.KeepsUp name awaited steps := by
  rintro before s after rfl reads
  exact keepsUp before s (after ++ rest) (List.append_assoc ..) reads

theorem reads_drain (name : String) : (Step.drain name).reads name = true := beq_self_eq_true name

theorem Awaits.drain (awaits : x.Awaits name queue) :
    (x.step (.drain name)).1.Awaits name [] ∧
      (queue.length ≤ x.bus.retention → x.obtained name [.drain name] = queue) := by
  obtain ⟨next, hnext, -, complete, drained⟩ := awaits.step (s := .drain name) ⟨nofun, nofun⟩
  obtain rfl := drained rfl
  rw [published_of_reads x (reads_drain name), List.append_nil, List.append_nil] at complete
  exact ⟨hnext, fun near => complete fun _ => near⟩

theorem Awaits.obtains (awaits : x.Awaits name []) (live : x.bus.isOpen = true)
    (spares : ∀ s ∈ steps, s.Spares name) : x.Obtains name steps := by
  obtain ⟨next, -, inOrder, complete⟩ := awaits.advance spares
  rw [List.nil_append] at inOrder complete
  constructor
  case inOrder => exact (List.sublist_append_left ..).trans inOrder
  case complete => exact fun keepsUp => ⟨next, complete keepsUp⟩
  case completed =>
    rintro before after keepsUp rfl
    rw [List.forall_mem_append] at spares
    obtain ⟨queue, hqueue, -, kept⟩ := awaits.advance spares.1
    have kept := kept keepsUp.of_append
    have near := keepsUp before _ after rfl (reads_drain name)
    have hlength := congrArg List.length kept
    rw [List.nil_append, List.length_append] at hlength
    rw [obtained_append, hqueue.drain.2, kept, List.nil_append]
    rw [retention_advance]
    omega
  case drained =>
    rintro before quiet after rfl nothing
    rw [List.forall_mem_append, List.forall_mem_cons, List.forall_mem_append] at spares
    obtain ⟨queue, hqueue, -⟩ := awaits.advance spares.1
    -- Nothing is awaited after the drain, and what follows publishes nothing.
    have split : before ++ .drain name :: quiet = before ++ ([.drain name] ++ quiet) := rfl
    rw [split, published_append, List.append_right_eq_self, List.singleton_append, published_cons,
      published_of_reads _ (reads_drain name), List.nil_append] at nothing
    obtain ⟨left, hleft, inOrder, -⟩ := hqueue.drain.1.advance spares.2.2.1
    rw [nothing, List.append_nil, List.sublist_nil, List.append_eq_nil_iff] at inOrder
    obtain ⟨-, rfl⟩ := inOrder
    have reached : x.advance (before ++ .drain name :: quiet) =
        ((x.advance before).step (.drain name)).1.advance quiet := by
      rw [split, advance_append]
      rfl
    have closes : (before ++ .drain name :: quiet).any Step.isClose =
        (before ++ quiet).any Step.isClose := by
      rw [List.any_append, List.any_cons, List.any_append]
      rfl
    rw [← reached] at hleft
    rw [hleft.tryReceive, isOpen_advance, live, closes]
    cases (before ++ quiet).any Step.isClose <;> rfl

def subscribed (capacity : Nat) (before : List Step) (name : String) : Exchange :=
  (ofCapacity capacity).advance (before ++ [.subscribe name])

theorem subscribed_awaits (capacity : Nat) {before : List Step} (name : String)
    (unclosed : .close ∉ before) : (subscribed capacity before name).Awaits name [] ∧
      (subscribed capacity before name).bus.isOpen = true := by
  have live : ((ofCapacity capacity).advance before).bus.isOpen = true := by
    rw [isOpen_advance, Step.any_isClose_eq_false unclosed]
    rfl
  unfold subscribed
  rw [advance_append]
  generalize (ofCapacity capacity).advance before = x at live ⊢
  have hstep : x.advance [.subscribe name] =
      { x with receivers := x.receivers.insert name x.bus.subscribe } := by
    change (x.step _).1 = _
    dsimp only [step]
    rw [if_pos live]
  rw [hstep]
  refine ⟨⟨x.bus.subscribe, ?_, Nat.le_refl _, LifecycleBus.pending_subscribe _⟩, live⟩
  rw [Dictionary.find?_insert, if_pos rfl]

structure Delivers (capacity : Nat) (before : List Step) (name : String) (after : List Step) : Prop
    extends Obtains (subscribed capacity before name) name after where
  retention : RoundsUp (max 1 capacity) (subscribed capacity before name).bus.retention
  alone : (subscribed capacity before name).answersTo name after =
    (subscribed capacity (before.filter (·.concerns name)) name).answersTo name
      (after.filter (·.concerns name))

theorem receivers_obtain_published {capacity : Nat} {before after : List Step}
    (unclosed : .close ∉ before) (spares : ∀ s ∈ after, s.Spares name) :
    Delivers capacity before name after := by
  obtain ⟨awaits, live⟩ := subscribed_awaits capacity name unclosed
  refine ⟨awaits.obtains live spares, ?_, ?_⟩
  · unfold subscribed
    rw [retention_advance]
    exact LifecycleBus.retention_ofCapacity capacity
  · have first : Agrees name (ofCapacity capacity) (ofCapacity capacity) := ⟨rfl, rfl⟩
    have agrees := (first.answersTo (before ++ [.subscribe name])).2
    have own : Step.concerns name (.subscribe name) = true := Step.concerns_of_receiver? rfl
    rw [List.filter_append, List.filter_cons_of_pos own, List.filter_nil] at agrees
    exact (agrees.answersTo after).1

-- Four events are retained: all are obtained from four behind, and none from five.
example : (subscribed 3 [] "r").obtained "r"
    [.publishRange 0 4, .drain "r", .publishRange 4 9, .drain "r"] = dispatches 0 4 := rfl

/-- A receiver falls behind by more than the two events that are retained, and then keeps up until
the bus is closed. -/
def lagging : List Step :=
  [.publish (.ignored "a") 1, .tryReceive "r", .publishRange 0 3, .drain "r", .tryReceive "r",
    .publishRange 3 5, .subscribe "s", .poll "r", .poll "s", .close, .drain "r", .tryReceive "r"]

theorem receivers_obtain_published_lagging :
    .close ∉ [Step.subscribe "s", .publishRange 7 9] ∧ (∀ s ∈ lagging, s.Spares "r") ∧
      (subscribed 2 [.subscribe "s", .publishRange 7 9] "r").obtained "r" lagging =
        [.ignored "a", .dispatched 3 false, .dispatched 4 false] ∧
      Delivers 2 [.subscribe "s", .publishRange 7 9] "r" lagging := by
  have unclosed : .close ∉ [Step.subscribe "s", .publishRange 7 9] := by simp
  have spares : ∀ s ∈ lagging, s.Spares "r" := by simp [lagging, Step.Spares]
  exact ⟨unclosed, spares, rfl, receivers_obtain_published unclosed spares⟩

end Exchange

end ScriptEvents
