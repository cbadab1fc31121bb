import ScriptEvents.Proofs.Machine.Trace
/-!
Hosts: all those around a registry taken together, its callers and every collaborator. A host may
decide on what it finds in the registry and on all that has passed, and every history is the doing
of some host.
-/
namespace ScriptEvents

structure History (start : Machine) where
  machine : Machine
  moves : List Move
  trace : Trace
  possible : start.run moves = some (machine, trace)

namespace History

variable {start : Machine}

def empty : History start := ⟨start, [], [], rfl⟩

def next? (h : History start) (move : Move) : Option (History start) :=
  match stepped : h.machine.step move with
  | some (machine, seen) =>
    some ⟨machine, h.moves ++ [move], h.trace ++ seen, Machine.run_concat h.possible stepped⟩
  | none => none

theorem next?_of_step {h : History start} {move : Move} {n : Machine} {seen : Trace}
    (stepped : h.machine.step move = some (n, seen)) :
    h.next? move = some ⟨n, h.moves ++ [move], h.trace ++ seen,
      Machine.run_concat h.possible stepped⟩ := by
  unfold next?
  split
  next found =>
    cases stepped.symm.trans found
    rfl
  next found => cases stepped.symm.trans found

theorem next?_eq_none {h : History start} {move : Move} (stuck : h.machine.step move = none) :
    h.next? move = none := by
  unfold next?
  split
  next found => cases stuck.symm.trans found
  next => rfl

theorem ext_moves {h k : History start} (same : h.moves = k.moves) : h = k := by
  obtain ⟨n, moves, trace, possible⟩ := h
  obtain ⟨n', moves', trace', possible'⟩ := k
  cases same
  cases possible.symm.trans possible'
  rfl

end History

/-- The move that is made next, by the registry as it is then, the moves so far and what has passed;
none if the host is done. -/
structure Host where
  move? : Registry → List Move → Trace → Option Move

namespace Host

/-- The history after so many moves of a host; none if it does not get that far. -/
def play (host : Host) (start : Machine) : Nat → Option (History start)
  | 0 => some .empty
  | n + 1 =>
    match host.play start n with
    | some h => (host.move? h.machine.registry h.moves h.trace).bind h.next?
    | none => none

def scripted (moves : List Move) : Host := ⟨fun _ made _ => moves[made.length]?⟩

variable {start : Machine}

theorem play_succ {host : Host} {n : Nat} {h : History start} {move : Move}
    (played : host.play start n = some h)
    (moves : host.move? h.machine.registry h.moves h.trace = some move) :
    host.play start (n + 1) = h.next? move := by
  simp only [play, played, moves, Option.bind_some]

/-- Every history is the doing of some host. -/
theorem play_scripted (k : History start) :
    (scripted k.moves).play start k.moves.length = some k := by
  -- Of a script that has been followed up to `h`, the rest can be followed too.
  suffices follow : ∀ (rest : List Move) (h : History start), h.moves ++ rest = k.moves →
      (scripted k.moves).play start h.moves.length = some h →
      (scripted k.moves).play start k.moves.length = some k from
    follow k.moves .empty rfl rfl
  intro rest
  induction rest with
  | nil =>
    intro h all played
    rw [List.append_nil] at all
    cases History.ext_moves all
    exact played
  | cons move rest ih =>
    intro h all played
    have possible := k.possible
    rw [← all, Machine.run_append_eq_some] at possible
    obtain ⟨n, _, _, reached, remaining, -⟩ := possible
    cases h.possible.symm.trans reached
    obtain ⟨_, _, _, stepped, -, -⟩ := Machine.run_cons_eq_some.1 remaining
    have scheduled : k.moves[h.moves.length]? = some move := by
      rw [← all, List.getElem?_append_right (Nat.le_refl _), Nat.sub_self]
      rfl
    have longer := (play_succ played scheduled).trans (History.next?_of_step stepped)
    refine ih _ ?_ (Eq.trans (congrArg _ List.length_append) longer)
    rw [← all, List.append_assoc]
    rfl

end Host

end ScriptEvents
