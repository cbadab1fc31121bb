import ScriptEvents.Proofs.Machine.Moment
/-!
Contracts: what holds of an operation while it waits, and what when it is over. If every turn keeps
a contract, and nested operations do not spoil it, then it holds of every operation in a history.
-/
namespace ScriptEvents

/-- Both are told what passed before the operation was called, the operation, and what has passed in
it since. -/
structure Contract where
  Waits : Trace → Operation → Trace → Pending → Prop
  Ends : Trace → Operation → Trace → Outcome → Prop

namespace Contract

variable {c : Contract} {start m : Machine} {moves : List Move} {before passed inner trace : Trace}
  {operation other : Operation} {waiting : Pending} {others : List Pending} {outcome : Outcome}

def Meets (c : Contract) (before : Trace) (operation : Operation) (passed : Trace) :
    Signal → Prop
  | .ask request waiting => c.Waits before operation (passed ++ [.asked request]) waiting
  | .done outcome => c.Ends before operation passed outcome

structure Kept (c : Contract) (start : Machine) : Prop where
  calls {moves : List Move} {m : Machine} {before : Trace} {operation : Operation} {t : Turn} :
    start.run moves = some (m, before) → m.mayCall operation = true →
      m.registry.Course (.call operation) t → c.Meets before operation t.body t.signal
  replies {moves : List Move} {m : Machine} {before passed : Trace} {operation : Operation}
      {waiting : Pending} {others : List Pending} {reply : Reply} {t : Turn} :
    start.run moves = some (m, before ++ .called operation :: passed) →
      m.pending = waiting :: others → passed.Balanced →
      c.Waits before operation passed waiting → m.registry.Course (.reply waiting reply) t →
      c.Meets before operation (passed ++ .replied reply :: t.body) t.signal
  nests {before passed inner : Trace} {operation other : Operation} {waiting : Pending}
      {outcome : Outcome} :
    passed.Balanced → inner.Balanced → c.Waits before operation passed waiting →
      c.Ends (before ++ .called operation :: passed) other inner outcome →
      c.Waits before operation (passed ++ .called other :: (inner ++ [.returned outcome])) waiting

inductive Holds (c : Contract) : List Pending → Trace → Prop where
  | idle {trace : Trace} : Holds c [] trace
  | waiting {before passed : Trace} {operation : Operation} {waiting : Pending}
      {others : List Pending} (outer : Holds c others before) (balanced : passed.Balanced)
      (waits : c.Waits before operation passed waiting) :
      Holds c (waiting :: others) (before ++ .called operation :: passed)

def Fulfilled (c : Contract) (trace : Trace) : Prop :=
  ∀ (before : Trace) (operation : Operation) (passed : Trace) (outcome : Outcome) (after : Trace),
    trace = before ++ .called operation :: (passed ++ .returned outcome :: after) →
      passed.Balanced → c.Ends before operation passed outcome

theorem Holds.ends (kept : c.Kept start) (holds : c.Holds others before)
    (balanced : passed.Balanced) (ends : c.Ends before operation passed outcome) :
    c.Holds others (before ++ .called operation :: (passed ++ [.returned outcome])) := by
  cases holds with
  | idle => exact .idle
  | waiting outer hpassed waits =>
    rw [List.append_assoc]
    exact .waiting outer (hpassed.append (balanced.whole operation outcome))
      (kept.nests hpassed balanced waits ends)

theorem Holds.meets (kept : c.Kept start) (holds : c.Holds others before)
    (balanced : passed.Balanced) {signal : Signal}
    (meets : c.Meets before operation passed signal) :
    c.Holds (signal.pending ++ others)
      (before ++ .called operation :: (passed ++ [signal.effect])) := by
  cases signal with
  | ask request waiting =>
    exact .waiting holds (balanced.append_flat (.singleton rfl)) meets
  | done outcome => exact holds.ends kept balanced meets

theorem Fulfilled.meets {old seen : Trace} {cause : Cause} {t : Turn} (h : c.Fulfilled old)
    (split : old ++ cause.effect :: t.body = before ++ .called operation :: passed)
    (balanced : passed.Balanced) (meets : c.Meets before operation passed t.signal)
    (hseen : seen = cause.effect :: t.effects) : c.Fulfilled (old ++ seen) := by
  intro before' operation' passed' outcome after hsplit balanced'
  rw [← List.cons_append, ← List.append_assoc] at hsplit
  rcases Trace.split_append hsplit with ⟨rest, hold, -⟩ | ⟨first, hold, hfirst⟩
  · rw [List.append_assoc] at hold
    exact h before' operation' passed' outcome rest hold balanced'
  · rw [hseen] at hfirst
    obtain ⟨hbody, hsignal, -⟩ := Turn.split_effects hfirst rfl
    rw [hbody, split] at hold
    obtain ⟨rfl, rfl, rfl⟩ := Trace.called_inj hold.symm balanced balanced'
    rw [Signal.eq_done hsignal] at meets
    exact meets

/-- An operation waits only for what suits it and what passed before it was called. -/
def standing (suits : Trace → Operation → Pending → Prop) : Contract where
  Waits before operation _ waiting := suits before operation waiting
  Ends _ _ _ _ := True

theorem standing_meets {suits : Trace → Operation → Pending → Prop} {signal : Signal}
    (h : ∀ p ∈ signal.pending, suits before operation p) :
    (standing suits).Meets before operation passed signal := by
  cases signal with
  | ask request waiting => exact h waiting List.mem_cons_self
  | done outcome => trivial

/-- An operation that waits has asked for what suits it, and since then others were nested in it. -/
def lastAsked (suits : Request → Pending → Prop) : Contract where
  Waits _ _ passed waiting := ∃ (earlier : Trace) (request : Request) (during : Trace),
    passed = earlier ++ .asked request :: during ∧ during.Balanced ∧ during.own = [] ∧
      suits request waiting
  Ends _ _ _ _ := True

theorem lastAsked_kept {suits : Request → Pending → Prop}
    (asks : ∀ {r : Registry} {cause : Cause} {t : Turn} {request : Request} {waiting : Pending},
      r.Course cause t → t.signal = .ask request waiting → suits request waiting)
    (start : Machine) : (lastAsked suits).Kept start := by
  have meets {r : Registry} {cause : Cause} {t : Turn} (before : Trace) (operation : Operation)
      (passed : Trace) (course : r.Course cause t) :
      (lastAsked suits).Meets before operation passed t.signal := by
    cases hsignal : t.signal with
    | ask request waiting =>
      exact ⟨passed, request, [], rfl, .nil, rfl, asks course hsignal⟩
    | done outcome => trivial
  constructor
  case calls =>
    intro _ _ before operation _ _ _ course
    exact meets before operation _ course
  case replies =>
    intro _ _ before passed operation _ _ _ _ _ _ _ _ course
    exact meets before operation _ course
  case nests =>
    intro _ _ _ _ other _ outcome _ hinner waits _
    obtain ⟨earlier, request, during, rfl, balanced, inside, suited⟩ := waits
    refine ⟨earlier, request, during ++ .called other :: (_ ++ [.returned outcome]), ?_,
      balanced.append (hinner.whole other outcome), ?_, suited⟩
    · rw [List.append_assoc]
      rfl
    · rw [Trace.own_append_whole balanced hinner, inside]

/-- What holds of an operation's own part, whatever is nested in it. -/
def ofOwn (waits : Trace → Pending → Prop) (ends : Trace → Outcome → Prop) : Contract where
  Waits _ _ passed waiting := waits passed.own waiting
  Ends _ _ passed outcome := ends passed.own outcome

def OwnMeets (waits : Trace → Pending → Prop) (ends : Trace → Outcome → Prop) (own : Trace) :
    Signal → Prop
  | .ask request waiting => waits (own ++ [.asked request]) waiting
  | .done outcome => ends own outcome

variable {waits : Trace → Pending → Prop} {ends : Trace → Outcome → Prop}

theorem ofOwn_meets {flat : Trace} {signal : Signal} (balanced : passed.Balanced)
    (hflat : flat.Flat) (h : OwnMeets waits ends (passed.own ++ flat) signal) :
    (ofOwn waits ends).Meets before operation (passed ++ flat) signal := by
  cases signal with
  | ask request waiting =>
    have hall : Trace.Flat (flat ++ [.asked request]) := hflat.append (.singleton rfl)
    change waits (Trace.own (passed ++ flat ++ [.asked request])) waiting
    rw [List.append_assoc, Trace.own_append_flat balanced hall, ← List.append_assoc]
    exact h
  | done outcome =>
    change ends (Trace.own (passed ++ flat)) outcome
    rw [Trace.own_append_flat balanced hflat]
    exact h

/-- Nested operations are no part of it, so only its own turns can spoil it. -/
theorem ofOwn_kept
    (calls : ∀ {r : Registry} {operation : Operation} {t : Turn},
      r.Course (.call operation) t → OwnMeets waits ends t.body t.signal)
    (replies : ∀ {r : Registry} {own : Trace} {waiting : Pending} {reply : Reply} {t : Turn},
      waits own waiting → r.Course (.reply waiting reply) t →
        OwnMeets waits ends (own ++ .replied reply :: t.body) t.signal)
    (start : Machine) : (ofOwn waits ends).Kept start where
  calls {_ _ before operation t} _ _ course := by
    have meets := calls course
    rw [← List.nil_append t.body] at meets ⊢
    exact ofOwn_meets .nil t.body_flat meets
  replies {_ _ _ _ _ _ _ reply t} _ _ balanced waits course :=
    ofOwn_meets balanced (.append (.singleton (e := .replied reply) rfl) t.body_flat)
      (replies waits course)
  nests hpassed hinner waits _ := by
    dsimp only [ofOwn] at waits ⊢
    rwa [Trace.own_append_whole hpassed hinner]

def due (stage : Pending → Nat) (final : Outcome → Nat) : Signal → Nat
  | .ask _ waiting => stage waiting
  | .done outcome => final outcome

def dueBefore (stage : Pending → Nat) : Cause → Nat
  | .call _ => 0
  | .reply waiting _ => stage waiting

/-- An operation itself does as much as is due at every stage, if each of its turns does what becomes
due by it. -/
theorem counting_kept {count : Trace → Nat} {stage : Pending → Nat} {final : Outcome → Nat}
    (additive : ∀ a b, count (a ++ b) = count a + count b)
    (unreplied : ∀ reply, count [.replied reply] = 0)
    (undone : ∀ outcome, count [.returned outcome] = 0)
    (turns : ∀ {r : Registry} {cause : Cause} {t : Turn}, r.Course cause t →
      due stage final t.signal = dueBefore stage cause + count t.effects)
    (start : Machine) : (ofOwn (fun own waiting => count own = stage waiting)
      fun own outcome => count own = final outcome).Kept start := by
  have meets {r : Registry} {own : Trace} {cause : Cause} {t : Turn}
      (h : count own = dueBefore stage cause) (course : r.Course cause t) :
      OwnMeets (fun own waiting => count own = stage waiting)
        (fun own outcome => count own = final outcome) (own ++ t.body) t.signal := by
    have turned := turns course
    rw [t.effects_eq, additive, ← h] at turned
    cases hsignal : t.signal with
    | ask request waiting =>
      rw [hsignal] at turned
      dsimp only [OwnMeets, due, Signal.effect] at turned ⊢
      rw [additive, additive]
      omega
    | done outcome =>
      rw [hsignal] at turned
      dsimp only [OwnMeets, due, Signal.effect] at turned ⊢
      rw [undone] at turned
      rw [additive]
      omega
  refine ofOwn_kept (fun course => ?_) (fun {_ own _ reply _} waits course => ?_) start
  · have hnil : count [] = 0 := by
      have := additive [] []
      simp only [List.append_nil] at this
      omega
    exact meets hnil course
  · rw [← List.singleton_append, ← List.append_assoc]
    refine meets ?_ course
    rw [additive, unreplied]
    exact waits

end Contract

namespace Machine

variable {start m : Machine} {moves : List Move} {trace : Trace} {c : Contract}

theorem mayCall_of_step {m' : Machine} {move : Move} {operation : Operation} {rest : Trace}
    (h : m.step move = some (m', .called operation :: rest)) : m.mayCall operation = true := by
  cases move with
  | call called =>
    simp only [step] at h
    split at h
    next allowed => cases h; exact allowed
    next => cases h
  | reply reply =>
    simp only [step] at h
    split at h
    · obtain ⟨_, -, hfinish⟩ := Option.map_eq_some_iff.1 h
      cases hfinish
    · cases h
  | edit change => cases h

/-- A contract that is kept holds of the operations in progress and of those that are over. -/
theorem IsNew.contract (new : start.IsNew) (kept : c.Kept start)
    (history : start.run moves = some (m, trace)) :
    c.Holds m.pending trace ∧ c.Fulfilled trace := by
  have inv := new.invariant (fun trace m =>
    (∃ moves, start.run moves = some (m, trace)) ∧ c.Holds m.pending trace ∧ c.Fulfilled trace)
    history ?_ ?_
  · exact inv.2
  · refine ⟨⟨[], rfl⟩, ?_, fun before _ _ _ _ h => by simp at h⟩
    rw [new.pending]
    exact .idle
  · intro before m move m' seen inv awaits hmove
    obtain ⟨⟨moves, history⟩, holds, fulfilled⟩ := inv
    refine ⟨⟨_, run_concat history hmove⟩, ?_⟩
    rcases awaits.step hmove with ⟨_, rfl, rfl⟩ | ⟨cause, others, t, hpending, course, rfl, rfl⟩
    · rw [List.append_nil]
      exact ⟨holds, fulfilled⟩
    rw [hpending] at holds
    -- The turn is the first of an operation on top of the others, or one of the innermost.
    cases cause with
    | call operation =>
      have meets := kept.calls history (mayCall_of_step hmove) course
      have balanced := t.body_flat.balanced
      exact ⟨holds.meets kept balanced meets, fulfilled.meets rfl balanced meets rfl⟩
    | reply waiting reply =>
      obtain _ | @⟨_, passed, _, _, _, outer, hpassed, waits⟩ := holds
      have meets := kept.replies history hpending hpassed waits course
      have balanced : Trace.Balanced (passed ++ .replied reply :: t.body) :=
        hpassed.append_flat (.append (.singleton rfl) t.body_flat)
      refine ⟨?_, fulfilled.meets (by rw [List.append_assoc]; rfl) balanced meets rfl⟩
      have holds := outer.meets kept balanced meets
      rwa [List.append_assoc] at holds ⊢

theorem IsNew.waits (new : start.IsNew) (kept : c.Kept start)
    (history : start.run moves = some (m, trace)) {waiting : Pending} {others : List Pending}
    (hpending : m.pending = waiting :: others) :
    ∃ (before : Trace) (operation : Operation) (passed : Trace),
      trace = before ++ .called operation :: passed ∧ passed.Balanced ∧
      c.Waits before operation passed waiting := by
  have holds := (new.contract kept history).1
  rw [hpending] at holds
  obtain _ | @⟨before, passed, operation, _, _, -, balanced, waits⟩ := holds
  exact ⟨before, operation, passed, rfl, balanced, waits⟩

end Machine

end ScriptEvents
