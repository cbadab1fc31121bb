import ScriptEvents.Proofs.Machine.Host
/-!
Isolation: a cancel handle that fails harms nobody. Two hosts that differ only in what their handles
answer go through the same history, up to the failures that a teardown reports.
-/
namespace ScriptEvents

def Reply.pardon : Reply → Reply
  | .stopped _ => .stopped (.ok ())
  | reply => reply

def CancelReport.pardon (report : CancelReport) : CancelReport := { report with failures := [] }

def Pending.pardon : Pending → Pending
  | .tearingDown id left report => .tearingDown id left report.pardon
  | waiting => waiting

def Outcome.pardon : Outcome → Outcome
  | .tornDown report => .tornDown report.pardon
  | outcome => outcome

def Signal.pardon : Signal → Signal
  | .ask request waiting => .ask request waiting.pardon
  | .done outcome => .done outcome.pardon

def Turn.pardon (t : Turn) : Turn := { t with signal := t.signal.pardon }

def Move.pardon : Move → Move
  | .reply answer => .reply answer.pardon
  | move => move

def Effect.pardon : Effect → Effect
  | .replied reply => .replied reply.pardon
  | .returned outcome => .returned outcome.pardon
  | effect => effect

def Machine.pardon (m : Machine) : Machine := { m with pending := m.pending.map Pending.pardon }

theorem Signal.pending_pardon (signal : Signal) :
    signal.pardon.pending = signal.pending.map Pending.pardon := by
  cases signal <;> rfl

theorem Signal.effect_pardon (signal : Signal) : signal.pardon.effect = signal.effect.pardon := by
  cases signal <;> rfl

theorem Turn.effects_pardon (t : Turn) : t.pardon.effects = t.effects.map Effect.pardon := by
  have receipts : (t.receipts.map Effect.received).map Effect.pardon =
      t.receipts.map Effect.received := by
    rw [List.map_map]
    rfl
  have events : (t.events.map Effect.published).map Effect.pardon =
      t.events.map Effect.published := by
    rw [List.map_map]
    rfl
  simp only [Turn.effects, List.map_append, receipts, events, List.map_cons, List.map_nil]
  rw [← Signal.effect_pardon]
  rfl

namespace Registry

variable (r : Registry)

theorem delivery_pardon (listener : Snapshot) (payload : HostValue) :
    (r.delivery listener payload).pardon = r.delivery listener payload := by
  unfold delivery
  split
  · rfl
  · split <;> rfl

theorem stop_pardon (l : Listener) (waiting : Pending) (next : Signal) :
    (stop l waiting next).pardon = stop l waiting.pardon next.pardon := by
  unfold stop
  split <;> rfl

theorem store_pardon (p : Proposal) (target : Directive) (id : ListenerId) :
    (r.store p target id).pardon = r.store p target id := by
  unfold store
  split
  · rfl
  · split <;> rfl

theorem enroll_pardon (p : Proposal) (target : Directive) (id : ListenerId) :
    (r.enroll p target id).pardon = r.enroll p target id :=
  congrArg (Turn.receive · (.id p.session id)) (r.store_pardon p target id)

theorem resolved_pardon (p : Proposal) (result : Except ResolveError (Option DirectiveEntry)) :
    (r.resolved p result).pardon = r.resolved p result := by
  match result with
  | .error _ | .ok none | .ok (some .ignore) | .ok (some (.notCallable _)) => rfl
  | .ok (some (.directive target)) =>
    unfold resolved
    dsimp only
    split
    · exact enroll_pardon ..
    · rfl

theorem register_pardon (request : Value) (session : Option Session) (once : Bool) :
    (r.register request session once).pardon = r.register request session once := by
  unfold register
  split
  · rfl
  · split
    · rfl
    · dsimp only
      split
      · rfl
      · split
        · exact resolved_pardon ..
        · rfl

theorem setUp_pardon (s : Subscription) (result : Except DirectiveError Bool) :
    (r.setUp s result).pardon = r.setUp s result := by
  unfold setUp
  split
  · rfl
  · dsimp only
    split <;> rfl
  · dsimp only
    split
    next e _ l _ =>
      exact congrArg (publish _ _) (stop_pardon l (.rejecting s.name e) _)
    next => rfl

theorem cancel_pardon (id : ListenerId) : (r.cancel id).pardon = r.cancel id := by
  unfold cancel
  split
  next l _ => exact congrArg (publish _ _) (stop_pardon l .cancelling _)
  next => rfl

theorem tearDown_pardon (report : CancelReport) (left : List ListenerId) :
    (r.tearDown report left).pardon = r.tearDown report.pardon left := by
  induction r, report, left using tearDown.induct with
  | case1 => rfl
  | case2 r report id left l found handle held =>
    simp only [tearDown, found, held]
    rfl
  | case3 r report id left l found removed now bare ih =>
    simp only [tearDown, found, bare]
    exact congrArg (fun t => { t with events := removed :: t.events }) ih
  | case4 r report id left absent ih =>
    simp only [tearDown, absent]
    exact ih

theorem dispatch_pardon (id : ListenerId) (payload : HostValue) (isFinal : Bool) :
    (r.dispatch id payload isFinal).pardon = r.dispatch id payload isFinal := by
  unfold dispatch
  split
  · rfl
  next l _ =>
    have delivered := r.delivery_pardon l.snapshot payload
    have fired := stop_pardon l (.firing l.snapshot payload) (r.delivery l.snapshot payload)
    rw [delivered] at fired
    split
    · rfl
    · split
      · exact congrArg (publish _ _) fired
      · exact congrArg (publish _ _) delivered

theorem evaluated_pardon (listener : Snapshot) (result : Except EvalError Value) :
    (r.evaluated listener result).pardon = r.evaluated listener result := by
  unfold evaluated
  split
  · rfl
  · split <;> rfl

theorem start_pardon (operation : Operation) :
    (r.start operation).pardon = r.start operation := by
  cases operation with
  | register request session once => exact r.register_pardon request session once
  | cancel id => exact r.cancel_pardon id
  | cancelAll order => exact r.tearDown_pardon {} order
  | dispatch id payload isFinal => exact r.dispatch_pardon id payload isFinal

theorem resume?_pardon (waiting : Pending) (reply : Reply) :
    r.resume? waiting.pardon reply.pardon = (r.resume? waiting reply).map Turn.pardon := by
  cases waiting with
  | resolving p =>
    cases reply with
    | resolved result => exact congrArg some (r.resolved_pardon p result).symm
    | _ => rfl
  | allocating p target =>
    cases reply with
    | allocated id => exact congrArg some (r.enroll_pardon p target id).symm
    | _ => rfl
  | settingUp s =>
    cases reply with
    | setUp result => exact congrArg some (r.setUp_pardon s result).symm
    | _ => rfl
  | tearingDown id left report =>
    match reply with
    | .stopped (.ok _) => exact congrArg some (r.tearDown_pardon report left).symm
    | .stopped (.error e) =>
      exact congrArg some (r.tearDown_pardon
        { report with failures := report.failures ++ [(id, e)] } left).symm
    | .resolved _ | .allocated _ | .setUp _ | .evaluated _ | .errorHandled _
    | .dispatchHandled _ => rfl
  | firing listener payload =>
    cases reply with
    | stopped result =>
      exact congrArg (some <| publish r [] ·) (r.delivery_pardon listener payload).symm
    | _ => rfl
  | evaluating listener =>
    cases reply with
    | evaluated result => exact congrArg some (r.evaluated_pardon listener result).symm
    | _ => rfl
  | recovering id =>
    match reply with
    | .errorHandled (.ok _) | .errorHandled (.error _) => rfl
    | .resolved _ | .allocated _ | .setUp _ | .evaluated _ | .stopped _
    | .dispatchHandled _ => rfl
  | _ => cases reply <;> rfl

end Registry

namespace Machine

theorem finish_pardon (others : List Pending) (cause : Effect) (t : Turn) :
    finish (others.map Pending.pardon) cause.pardon t.pardon =
      ((finish others cause t).1.pardon, (finish others cause t).2.map Effect.pardon) := by
  simp only [finish, pardon, Turn.effects_pardon, List.map_append, List.map_cons]
  rw [← Signal.pending_pardon]
  rfl

theorem step_pardon (m : Machine) (move : Move) :
    m.pardon.step move.pardon =
      (m.step move).map fun (n, seen) => (n.pardon, seen.map Effect.pardon) := by
  cases move with
  | call operation =>
    have finished := finish_pardon m.pending (.called operation) (m.registry.start operation)
    rw [m.registry.start_pardon] at finished
    have may : m.pardon.mayCall operation = m.mayCall operation := by
      cases operation <;> rfl
    cases allowed : m.mayCall operation with
    | true =>
      simp only [Move.pardon, step, may, allowed, if_true]
      exact congrArg some finished
    | false =>
      simp only [Move.pardon, step, may, allowed, Bool.false_eq_true, if_false, Option.map_none]
  | reply reply =>
    cases waits : m.pending with
    | nil => simp only [Move.pardon, step, pardon, waits, List.map_nil, Option.map_none]
    | cons waiting others =>
      simp only [Move.pardon, step, pardon, waits, List.map_cons, m.registry.resume?_pardon,
        Option.map_map]
      cases m.registry.resume? waiting reply with
      | none => rfl
      | some t => exact congrArg some (finish_pardon others (.replied reply) t)
  | edit change => rfl

end Machine

/-- The same has happened, up to failures of handles: the same is stored and counted, operations in
progress stand at the same points, and the same moves were made, with the same effects in the same
order. -/
structure History.Alike {start : Machine} (h k : History start) : Prop where
  registry : h.machine.registry = k.machine.registry
  pending : h.machine.pending.map Pending.pardon = k.machine.pending.map Pending.pardon
  moves : h.moves.map Move.pardon = k.moves.map Move.pardon
  trace : h.trace.map Effect.pardon = k.trace.map Effect.pardon

/-- The hosts do the same, but for what their handles answer, and let nothing depend on failures of
handles. -/
def Host.Alike (host other : Host) : Prop :=
  ∀ (r : Registry) {moves moves' : List Move} {trace trace' : Trace},
    moves.map Move.pardon = moves'.map Move.pardon →
    trace.map Effect.pardon = trace'.map Effect.pardon →
    (host.move? r moves trace).map Move.pardon = (other.move? r moves' trace').map Move.pardon

namespace History

variable {start : Machine} {h k : History start}

theorem Alike.machine_pardon (alike : h.Alike k) : h.machine.pardon = k.machine.pardon := by
  rw [Machine.pardon, Machine.pardon, alike.registry, alike.pending]

theorem Alike.next? (alike : h.Alike k) {move other : Move} (same : move.pardon = other.pardon) :
    Option.Rel Alike (h.next? move) (k.next? other) := by
  have stepped := Machine.step_pardon h.machine move
  rw [alike.machine_pardon, same, Machine.step_pardon k.machine other] at stepped
  cases hh : h.machine.step move with
  | none =>
    rw [hh, Option.map_none, Option.map_eq_none_iff] at stepped
    rw [next?_eq_none hh, next?_eq_none stepped]
    exact .none
  | some result =>
    obtain ⟨n, seen⟩ := result
    rw [hh, Option.map_some, Option.map_eq_some_iff] at stepped
    obtain ⟨⟨n', seen'⟩, hk, pardoned⟩ := stepped
    obtain ⟨machines, effects⟩ := Prod.mk.inj pardoned
    rw [next?_of_step hh, next?_of_step hk]
    refine .some ⟨(congrArg (·.registry) machines).symm, (congrArg (·.pending) machines).symm, ?_, ?_⟩
    · simp only [List.map_append, alike.moves, List.map_cons, List.map_nil, same]
    · simp only [List.map_append, alike.trace, effects]

end History

namespace Host

variable {host other : Host}

/-- Whether a cancel handle fails or not makes no difference but in the report of a teardown. -/
theorem play_alike (alike : host.Alike other) (start : Machine) (n : Nat) :
    Option.Rel History.Alike (host.play start n) (other.play start n) := by
  induction n with
  | zero => exact .some ⟨rfl, rfl, rfl, rfl⟩
  | succ n ih =>
    unfold play
    generalize host.play start n = played, other.play start n = played' at ih ⊢
    cases ih with
    | none => exact .none
    | @some h k histories =>
      have moves := alike k.machine.registry histories.moves histories.trace
      dsimp only
      rw [histories.registry]
      cases hh : host.move? k.machine.registry h.moves h.trace with
      | none =>
        rw [hh, Option.map_none, eq_comm, Option.map_eq_none_iff] at moves
        rw [moves]
        exact .none
      | some move =>
        rw [hh, Option.map_some, eq_comm, Option.map_eq_some_iff] at moves
        obtain ⟨move', hk, same⟩ := moves
        rw [hk]
        exact histories.next? same.symm

theorem scripted_alike {moves moves' : List Move}
    (same : moves.map Move.pardon = moves'.map Move.pardon) :
    (scripted moves).Alike (scripted moves') := by
  intro r made made' trace trace' hmade htrace
  have lengths : made.length = made'.length := by
    simpa using congrArg List.length hmade
  simp only [scripted, ← List.getElem?_map, same, lengths]

/-- While all is torn down, the first handle delivers to the other listener for the last time, so
the handle of that one runs within. -/
def nestedTeardown (answer : Except DirectiveError Unit) : List Move :=
  [.call (.register (.ofList [.string "tick"]) none true),
    .reply (.resolved (.ok (some (.directive ⟨0⟩)))),
    .reply (.setUp (.ok true)),
    .call (.register (.ofList [.string "tock", .nil, .procedure { handle := 1 }]) none false),
    .reply (.resolved (.ok (some (.directive ⟨1⟩)))),
    .reply (.setUp (.ok true)),
    .call (.cancelAll [7, 8]),
    .call (.dispatch 8 (.boolean true) true),
    .reply (.stopped answer),
    .reply (.evaluated (.ok .nil)),
    .reply (.stopped answer)]

theorem play_alike_nestedTeardown :
    (scripted (nestedTeardown (.error (.cancel "stuck")))).Alike
        (scripted (nestedTeardown (.ok ()))) ∧
      ∃ h k : History Machine.counting,
        (scripted (nestedTeardown (.error (.cancel "stuck")))).play Machine.counting 11 = some h ∧
        (scripted (nestedTeardown (.ok ()))).play Machine.counting 11 = some k ∧ h.Alike k ∧
        h.trace.getLast? = some (.returned (.tornDown
          { cancelled := [7], failures := [(7, .cancel "stuck")] })) ∧
        k.trace.getLast? = some (.returned (.tornDown { cancelled := [7] })) := by
  have alike : (scripted (nestedTeardown (.error (.cancel "stuck")))).Alike
      (scripted (nestedTeardown (.ok ()))) := scripted_alike rfl
  let h : History Machine.counting := ⟨_, nestedTeardown (.error (.cancel "stuck")), _, rfl⟩
  let k : History Machine.counting := ⟨_, nestedTeardown (.ok ()), _, rfl⟩
  have histories := play_alike alike Machine.counting 11
  have hplayed : (scripted (nestedTeardown (.error (.cancel "stuck")))).play Machine.counting 11 =
    some h := play_scripted h
  have kplayed : (scripted (nestedTeardown (.ok ()))).play Machine.counting 11 = some k :=
    play_scripted k
  rw [hplayed, kplayed] at histories
  cases histories with
  | some same => exact ⟨alike, h, k, hplayed, kplayed, same, rfl, rfl⟩

end Host

end ScriptEvents
