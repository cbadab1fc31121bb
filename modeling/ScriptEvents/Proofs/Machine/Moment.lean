import ScriptEvents.Proofs.Machine.Nesting
/-!
Moments of a history: it can be cut wherever a turn ends, and what passes inside an operation that
waits is a history of its own.
-/
namespace ScriptEvents

def Turn.body (t : Turn) : Trace := t.receipts.map .received ++ t.events.map .published

theorem Turn.effects_eq (t : Turn) : t.effects = t.body ++ [t.signal.effect] := rfl

theorem Turn.forall_body {t : Turn} {P : Effect → Prop}
    (receipts : ∀ receipt ∈ t.receipts, P (.received receipt))
    (events : ∀ event ∈ t.events, P (.published event)) : ∀ e ∈ t.body, P e :=
  List.forall_mem_append.2 ⟨List.forall_mem_map.2 receipts, List.forall_mem_map.2 events⟩

theorem Turn.forall_effects {t : Turn} {P : Effect → Prop}
    (receipts : ∀ receipt ∈ t.receipts, P (.received receipt))
    (events : ∀ event ∈ t.events, P (.published event)) (signal : P t.signal.effect) :
    ∀ e ∈ t.effects, P e := by
  rw [t.effects_eq]
  exact List.forall_mem_append.2
    ⟨Turn.forall_body receipts events, List.forall_mem_singleton.2 signal⟩

theorem Turn.body_flat (t : Turn) : t.body.Flat :=
  Turn.forall_body (fun _ _ => rfl) fun _ _ => rfl

theorem Signal.eq_done {signal : Signal} {outcome : Outcome}
    (h : signal.effect = .returned outcome) : signal = .done outcome := by
  cases signal with
  | ask => cases h
  | done => cases h; rfl

theorem Turn.getLast?_effects (t : Turn) : t.effects.getLast? = some t.signal.effect := by
  simp [t.effects_eq]

theorem Turn.pending_of_returned {t : Turn} {outcome : Outcome}
    (last : t.effects.getLast? = some (.returned outcome)) : t.signal.pending = [] := by
  rw [t.getLast?_effects, Option.some.injEq] at last
  rw [Signal.eq_done last]
  rfl

theorem Turn.pending_of_asked {t : Turn} {request : Request}
    (last : t.effects.getLast? = some (.asked request)) :
    ∃ waiting, t.signal.pending = [waiting] := by
  rw [t.getLast?_effects, Option.some.injEq] at last
  cases hsignal : t.signal with
  | ask asked waiting => exact ⟨waiting, rfl⟩
  | done outcome =>
    rw [hsignal] at last
    cases last

def Effect.endsTurn : Effect → Bool
  | asked _ | returned _ => true
  | _ => false

theorem Turn.split_effects {cause : Cause} {t : Turn} {before after : Trace} {e : Effect}
    (split : cause.effect :: t.effects = before ++ e :: after) (ends : e.endsTurn = true) :
    before = cause.effect :: t.body ∧ t.signal.effect = e ∧ after = [] := by
  have hbody : ∀ e ∈ t.body, e.endsTurn = false :=
    Turn.forall_body (fun _ _ => rfl) fun _ _ => rfl
  have hnone : e ∉ cause.effect :: t.body := by
    rw [List.mem_cons, not_or]
    constructor
    · rintro rfl
      cases cause <;> cases ends
    · intro hmem
      cases (hbody e hmem).symm.trans ends
  rw [t.effects_eq, ← List.cons_append] at split
  rcases Trace.split_append split with ⟨rest, hbody, -⟩ | ⟨first, rfl, hlast⟩
  · rw [hbody] at hnone
    simp at hnone
  · cases first with
    | nil => simpa using hlast
    | cons _ first => simp at hlast

theorem Turn.split_replied {cause : Cause} {t : Turn} {early late : Trace} {reply : Reply}
    (split : cause.effect :: t.effects = early ++ .replied reply :: late) :
    early = [] ∧ cause.effect = .replied reply ∧ late = t.effects := by
  cases early with
  | nil =>
    obtain ⟨hcause, heffects⟩ := List.cons.inj split
    exact ⟨rfl, hcause, heffects.symm⟩
  | cons _ early =>
    obtain ⟨-, heffects⟩ := List.cons.inj split
    have hmem : .replied reply ∈ t.effects := by
      rw [heffects]
      exact List.mem_append_right early List.mem_cons_self
    exact absurd hmem (Registry.replied_not_mem_effects t reply)

theorem Turn.split_published {cause : Cause} {t : Turn} {early late : Trace}
    {event : LifecycleEvent}
    (split : cause.effect :: t.effects = early ++ .published event :: late) :
    ∃ mid rest : Trace, early = cause.effect :: mid ∧ t.body = mid ++ .published event :: rest ∧
      mid.Flat ∧ event ∈ t.events := by
  rw [t.effects_eq, ← List.cons_append] at split
  rcases Trace.split_append split with ⟨rest, hbody, -⟩ | ⟨first, -, hlast⟩
  · cases early with
    | nil =>
      cases cause <;> cases hbody
    | cons _ mid =>
      obtain ⟨rfl, hmid⟩ := List.cons.inj hbody
      have flat := t.body_flat
      rw [Trace.Flat, hmid, List.append_eq, List.forall_mem_append] at flat
      refine ⟨mid, rest, rfl, hmid, flat.1, ?_⟩
      have hmem : .published event ∈ t.body := hmid ▸ List.mem_append_right _ List.mem_cons_self
      rcases List.mem_append.1 hmem with h | h
      · obtain ⟨_, -, hreceived⟩ := List.mem_map.1 h
        cases hreceived
      · obtain ⟨_, hevent, hpublished⟩ := List.mem_map.1 h
        cases hpublished
        exact hevent
  · cases first with
    | nil => cases hsignal : t.signal <;> simp [hsignal, Signal.effect] at hlast
    | cons _ first => simp at hlast

namespace Machine

inductive TurnEnds (start m : Machine) (moves : List Move) (before : Trace) (e : Effect)
    (after : Trace) : Prop where
  | intro {first rest : List Move} {move : Move} {n : Machine} {seen : Trace} {cause : Cause}
      {others : List Pending} {t : Turn} (moved : moves = first ++ move :: rest)
      (history : start.run first = some (n, seen))
      (turned : n.step move =
        some ({ registry := t.registry, pending := t.signal.pending ++ others },
          cause.effect :: t.effects))
      (waited : n.pending = cause.pending ++ others) (course : n.registry.Course cause t)
      (ends : t.signal.effect = e) (split : before = seen ++ cause.effect :: t.body)
      (later : run { registry := t.registry, pending := t.signal.pending ++ others } rest =
        some (m, after)) :
      TurnEnds start m moves before e after

inductive TurnHolds (start m : Machine) (moves : List Move) (before : Trace) (e : Effect)
    (after : Trace) : Prop where
  | intro {first rest : List Move} {move : Move} {n : Machine} {seen early late later : Trace}
      {cause : Cause} {others : List Pending} {t : Turn} (moved : moves = first ++ move :: rest)
      (history : start.run first = some (n, seen))
      (turned : n.step move =
        some ({ registry := t.registry, pending := t.signal.pending ++ others },
          cause.effect :: t.effects))
      (waited : n.pending = cause.pending ++ others) (course : n.registry.Course cause t)
      (inside : cause.effect :: t.effects = early ++ e :: late) (split : before = seen ++ early)
      (left : after = late ++ later)
      (continued : run { registry := t.registry, pending := t.signal.pending ++ others } rest =
        some (m, later)) :
      TurnHolds start m moves before e after

theorem AwaitsIdsOutside.turnHolds {m m' : Machine} {moves : List Move}
    {trace before after : Trace} {e : Effect} (awaits : m.AwaitsIdsOutside)
    (history : m.run moves = some (m', trace)) (split : trace = before ++ e :: after) :
    TurnHolds m m' moves before e after := by
  induction moves generalizing m trace before with
  | nil =>
    cases history
    simp at split
  | cons move moves ih =>
    obtain ⟨next, seen, later, hmove, hrest, rfl⟩ := run_cons_eq_some.1 history
    rcases Trace.split_append split with ⟨rest, hseen, rfl⟩ | ⟨first, rfl, hlater⟩
    · rcases awaits.step hmove with ⟨_, -, rfl⟩ | ⟨cause, others, t, hpending, course, rfl, rfl⟩
      · simp at hseen
      · exact .intro (List.nil_append _).symm rfl hmove hpending course hseen rfl rfl hrest
    · obtain ⟨rfl, hfirst, hturn, hwaited, hcourse, hinside, rfl, hafter, hlast⟩ :=
        ih (awaits.preserved hmove) hrest hlater
      exact .intro (List.cons_append ..).symm (run_cons_eq_some.2 ⟨_, _, _, hmove, hfirst, rfl⟩)
        hturn hwaited hcourse hinside (List.append_assoc ..).symm hafter hlast

theorem AwaitsIdsOutside.turnEnds {m m' : Machine} {moves : List Move} {trace before after : Trace}
    {e : Effect} (awaits : m.AwaitsIdsOutside) (history : m.run moves = some (m', trace))
    (split : trace = before ++ e :: after) (ends : e.endsTurn = true) :
    TurnEnds m m' moves before e after := by
  obtain ⟨rfl, hfirst, hturn, hwaited, hcourse, hinside, rfl, rfl, hrest⟩ :=
    awaits.turnHolds history split
  obtain ⟨rfl, hsignal, rfl⟩ := Turn.split_effects hinside ends
  exact .intro rfl hfirst hturn hwaited hcourse hsignal rfl hrest

end Machine

namespace Trace

theorem closes_turn (cause : Cause) (t : Turn) (others : List Pending) (rest : Trace) :
    closes (cause.pending ++ others).length (cause.effect :: t.effects ++ rest) =
      closes (t.signal.pending ++ others).length rest := by
  have hcause (trace : Trace) : closes (cause.pending ++ others).length (cause.effect :: trace) =
      closes (others.length + 1) trace := by
    cases cause with
    | call operation => exact closes_called ..
    | reply waiting reply => exact closes_cons rfl ..
  have hsignal : closes (others.length + 1) (t.signal.effect :: rest) =
      closes (t.signal.pending ++ others).length rest := by
    cases t.signal with
    | ask request waiting => exact closes_cons rfl ..
    | done outcome => exact closes_returned_succ ..
  have hbody := closes_append t.body_flat.balanced (others.length + 1) (t.signal.effect :: rest)
  rw [Nat.zero_add] at hbody
  rw [List.cons_append, hcause, t.effects_eq, List.append_assoc, List.singleton_append, hbody,
    hsignal]

theorem levels_turn (cause : Cause) (t : Turn) (others : List Pending) (rest : Trace) :
    levels (cause.pending ++ others).length (cause.effect :: t.effects ++ rest) =
      (cause.effect :: t.effects).map (fun e => (others.length + 1, e)) ++
        levels (t.signal.pending ++ others).length rest := by
  have hcause (trace : Trace) : levels (cause.pending ++ others).length (cause.effect :: trace) =
      (others.length + 1, cause.effect) :: levels (others.length + 1) trace := by
    cases cause with
    | call operation => rfl
    | reply waiting reply => exact levels_cons rfl ..
  have hsignal : levels (others.length + 1) (t.signal.effect :: rest) =
      (others.length + 1, t.signal.effect) ::
        levels (t.signal.pending ++ others).length rest := by
    cases t.signal with
    | ask request waiting => exact levels_cons rfl ..
    | done outcome => rfl
  have hbody := levels_append t.body_flat.balanced (others.length + 1) (t.signal.effect :: rest)
  rw [Nat.zero_add] at hbody
  rw [List.cons_append, hcause, t.effects_eq, List.append_assoc, List.singleton_append, hbody,
    hsignal, levels_of_flat t.body_flat]
  simp

end Trace

namespace Machine

theorem replied_of_step {m m' : Machine} {reply : Reply} {seen : Trace}
    (h : m.step (.reply reply) = some (m', seen)) : ∃ rest, seen = .replied reply :: rest := by
  simp only [step] at h
  split at h
  · obtain ⟨_, -, hfinish⟩ := Option.map_eq_some_iff.1 h
    cases hfinish
    exact ⟨_, rfl⟩
  · cases h

/-- What passes while an operation waits, in operations nested in it, passes as if nothing else were
in progress. -/
theorem run_above {n m : Machine} {above below : List Pending} {moves : List Move} {during : Trace}
    (history : n.run moves = some (m, during)) (waits : n.pending = above ++ below)
    (closed : Trace.closes above.length during = true)
    (inside : ∀ p ∈ Trace.levels above.length during, p.1 ≠ 0) :
    m.pending = below ∧
      { n with pending := above }.run moves = some ({ m with pending := [] }, during) := by
  induction moves generalizing n above during with
  | nil =>
    cases history
    have habove : above = [] := by simpa using closed
    subst habove
    exact ⟨waits, rfl⟩
  | cons move moves ih =>
    obtain ⟨next, seen, later, hmove, hrest, rfl⟩ := run_cons_eq_some.1 history
    -- It is enough that the first move is one above the operation that waits.
    suffices h : ∃ above', next.pending = above' ++ below ∧
        { n with pending := above }.step move = some ({ next with pending := above' }, seen) ∧
        Trace.closes above'.length later = true ∧ ∀ p ∈ Trace.levels above'.length later, p.1 ≠ 0 by
      obtain ⟨above', hnext, hstep, hclosed, hinside⟩ := h
      obtain ⟨hm, hrun⟩ := ih hrest hnext hclosed hinside
      exact ⟨hm, run_cons_eq_some.2 ⟨_, seen, later, hstep, hrun, rfl⟩⟩
    have turned (cause : Cause) (others : List Pending) (t : Turn)
        (habove : above = cause.pending ++ others) (hseen : seen = cause.effect :: t.effects) :
        Trace.closes (t.signal.pending ++ others).length later = true ∧
          ∀ p ∈ Trace.levels (t.signal.pending ++ others).length later, p.1 ≠ 0 := by
      subst habove hseen
      rw [Trace.closes_turn] at closed
      rw [Trace.levels_turn] at inside
      exact ⟨closed, fun p hp => inside p (List.mem_append_right _ hp)⟩
    cases move with
    | call operation =>
      simp only [step] at hmove
      split at hmove
      next allowed =>
        cases hmove
        refine ⟨_, by rw [List.append_assoc, ← waits], ?_,
          turned (.call operation) above _ rfl rfl⟩
        exact if_pos allowed
      next => cases hmove
    | reply reply =>
      cases above with
      | nil =>
        obtain ⟨rest, rfl⟩ := replied_of_step hmove
        exact absurd rfl (inside (0, .replied reply) (by simp [Trace.levels]))
      | cons waiting above =>
        simp only [step, waits, List.cons_append] at hmove
        obtain ⟨t, hturn, hfinish⟩ := Option.map_eq_some_iff.1 hmove
        cases hfinish
        refine ⟨_, by rw [← List.append_assoc], ?_,
          turned (.reply waiting reply) above t rfl rfl⟩
        simp only [step, hturn]
        rfl
    | edit change =>
      cases hmove
      exact ⟨above, waits, rfl, closed, inside⟩

/-- What passes in nested operations alone leaves those that wait as they are. -/
theorem run_inside {n m : Machine} {moves : List Move} {during : Trace}
    (history : n.run moves = some (m, during)) (balanced : during.Balanced)
    (inside : during.own = []) :
    m.pending = n.pending ∧
      { n with pending := [] }.run moves = some ({ m with pending := [] }, during) :=
  run_above history (List.nil_append _).symm balanced (Trace.levels_ne_zero inside)

end Machine

end ScriptEvents
