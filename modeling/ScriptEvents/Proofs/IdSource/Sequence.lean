import ScriptEvents.Proofs.Registry.Enrollment
/-!
Ids in sequence: a registry that counts its ids gives them out one after the other, whatever becomes
of the registrations and however they are nested. It skips none but the one that is not valid.
-/
namespace ScriptEvents

namespace Registry

variable {r s : Registry} {seen : Trace} {next : ListenerId}

theorem Act.ids_sequential (act : Act r seen s) (ids : r.ids = .sequential next) :
    s.ids = .sequential (next + .ofNat seen.allocations.length) := by
  rcases act.allocations_cases with ⟨session, id, given, hone⟩ | ⟨hnone, hids⟩
  · have own : r.ids ≠ .external := by
      rw [ids]
      nofun
    have hnext := (given.next?_of_own own).1
    rw [ids] at hnext
    rw [hone]
    exact (Prod.mk.inj (Option.some.inj hnext)).2.symm
  · rw [hids, ids, hnone]
    exact congrArg IdSource.sequential (Int64.add_zero next).symm

theorem Acts.ids_sequential (acts : Acts r seen s) (ids : r.ids = .sequential next) :
    s.ids = .sequential (next + .ofNat seen.allocations.length) := by
  induction acts generalizing next with
  | nil =>
    rw [ids]
    exact congrArg IdSource.sequential (Int64.add_zero next).symm
  | cons first _ ih =>
    rw [ih (first.ids_sequential ids), Trace.allocations_append, List.length_append,
      Int64.ofNat_add, Int64.add_assoc]

end Registry

/-- The registrations of a trace took the ids from `first` on, one after the other. -/
structure CountsFrom (first : ListenerId) (m : Machine) (trace : Trace) : Prop where
  counter : m.registry.ids = .sequential (first + .ofNat trace.allocations.length)
  registered : trace.registrations =
    ((List.range trace.allocations.length).map fun k => first + .ofNat k).filter (· ≠ .invalid)
  distinct : trace.registrations.Nodup
  given (before : Trace) (session : Option Session) (id : ListenerId) (after : Trace) :
    trace = before ++ .received (.id session id) :: after →
      id = first + .ofNat before.allocations.length
  settled (before : Trace) (session : Option Session) (id : ListenerId) (after : Trace) :
    trace = before ++ .received (.id session id) :: after →
      id = .invalid ∧
        (∃ rest, after = .returned (.registered (.error (.invalidId .invalid))) :: rest) ∨
      id ≠ .invalid ∧ ∃ name once target options rest,
        after = .published (.registered id name once) :: .asked (.invoke target options id) :: rest
  refused (before : Trace) (id : ListenerId) (after : Trace) :
    trace = before ++ .returned (.registered (.error (.invalidId id))) :: after →
      id = .invalid ∧ ∃ earlier session, before = earlier ++ [.received (.id session .invalid)]
  refusedOnce : trace.refusals.length ≤ 1
  -- An operation that is over was itself given one id if it ended because of that, or because of
  -- its directive, or with a listener, and else none.
  consumed (before : Trace) (operation : Operation) (passed : Trace) (outcome : Outcome)
      (after : Trace) :
    trace = before ++ .called operation :: (passed ++ .returned outcome :: after) →
      passed.Balanced → passed.own.allocations.length = outcome.allocated

namespace Machine

variable {start m : Machine} {moves : List Move} {trace : Trace} {first : ListenerId}

theorem IsNew.allocations_eq (new : start.IsNew) (history : start.run moves = some (m, trace))
    (ids : start.registry.ids = .sequential first) :
    trace.allocations.map Prod.snd =
      (List.range trace.allocations.length).map fun k => first + .ofNat k := by
  have own : start.registry.ids ≠ .external := by
    rw [ids]
    nofun
  rw [(new.acts history).allocations_eq_take own, ids, IdSource.take_sequential, List.length_map]

theorem ids_count_from_first (new : start.IsNew) (ids : start.registry.ids = .sequential first)
    (history : start.run moves = some (m, trace))
    (bounded : trace.allocations.length ≤ UInt64.size) : CountsFrom first m trace := by
  have allocated := new.allocations_eq history ids
  have fresh : start.registry.ids.NeverRepeats trace.allocations := by
    rw [ids]
    exact bounded
  have nodup := fresh.nodup fun own => (new.acts history).allocations_eq_take own
  have enrolls := new.enrolls_of_nodup history nodup
  constructor
  case counter => exact (new.acts history).ids_sequential ids
  case registered => rw [enrolls.registrations_eq, allocated]
  case distinct => exact new.registrations_nodup history fresh
  case given =>
    rintro before session id after rfl
    have hall := congrArg (fun ids => ids[before.allocations.length]?) allocated
    simpa [Trace.allocations, Effect.allocation?] using hall
  case settled =>
    intro before session id after split
    rcases enrolls.of_received split with ⟨rfl, hrest⟩ | hstored
    · exact .inl ⟨rfl, hrest⟩
    · exact .inr hstored
  case refused =>
    intro before id after split
    obtain ⟨rfl, hbefore⟩ := enrolls.of_returned split
    exact ⟨rfl, hbefore⟩
  case refusedOnce =>
    rw [enrolls.refusals_eq, List.filter_eq, List.length_replicate]
    exact List.nodup_iff_count_le_one.1 nodup .invalid
  case consumed => exact (new.contract (Contract.allocating_kept start) history).2

/-- Ids are counted from the second last of the negative ones. -/
def fromMinusTwo : Machine :=
  { registry := { resolver := .external, ids := .sequential (-2) } }

/-- While its directive sets up, a listener's registration is followed by one that gets no valid id,
by one without a name, and by one that the directive refuses. -/
def nestedRegistrations : List Move :=
  [.call (.register (.ofList [.string "a"]) none false),
    .reply (.resolved (.ok (some (.directive ⟨0⟩)))),
    .call (.register (.ofList [.string "b"]) none true),
    .reply (.resolved (.ok (some (.directive ⟨1⟩)))),
    .call (.register .nil none false),
    .call (.register (.ofList [.string "c"]) none false),
    .reply (.resolved (.ok (some (.directive ⟨2⟩)))),
    .reply (.setUp (.error (.setup "no"))),
    .reply (.setUp (.ok false))]

theorem ids_count_from_first_fromMinusTwo : ∃ m trace, fromMinusTwo.IsNew ∧
    fromMinusTwo.registry.ids = .sequential (-2) ∧
    fromMinusTwo.run nestedRegistrations = some (m, trace) ∧
    (Trace.allocations trace).length ≤ UInt64.size ∧ Trace.registrations trace = [-2, 0] ∧
    Trace.refusals trace = [.invalid] ∧ CountsFrom (-2) m trace := by
  have new : fromMinusTwo.IsNew := ⟨rfl, rfl, rfl, rfl⟩
  have history : fromMinusTwo.run nestedRegistrations = some (_, _) := rfl
  have bounded : 3 ≤ UInt64.size := by decide
  exact ⟨_, _, new, rfl, history, bounded, rfl, rfl, ids_count_from_first new rfl history bounded⟩

end Machine

end ScriptEvents
