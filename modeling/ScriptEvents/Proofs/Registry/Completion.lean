import ScriptEvents.Proofs.Registry.Invocations
/-!
Set-up completion: what is left to do of a registration when its directive has returned. It finds
its listener by id alone, so this is its own unless the id was given away again meanwhile.
-/
namespace ScriptEvents

namespace Machine

variable {start m m' : Machine} {moves : List Move} {before during : Trace} {id : ListenerId}
  {target : Directive} {options : Value}

theorem setsUpOnce_of_idle {n : Machine} (idle : n.pending = []) : SetsUpOnce [] n := by
  intro id
  simp [idle, Trace.supplies]

theorem awaitsIdsOutside_of_idle {n : Machine} (idle : n.pending = []) : n.AwaitsIdsOutside := by
  intro p target h
  rw [idle] at h
  cases h

theorem not_mem_supplies_of_idle {n : Machine} (idle : n.pending = [])
    (history : n.run moves = some (m, during)) (unregistered : id ∉ during.registrations) :
    id ∉ during.supplies.map Prod.fst := by
  have once := (setsUpOnce_of_idle idle).run (awaitsIdsOutside_of_idle idle) history id
  rw [List.nil_append, List.count_eq_zero.2 unregistered] at once
  exact List.count_eq_zero.1 (by omega)

/-- A listener is as it was before operations nested in others, as long as it is there and its id is
not registered again. -/
theorem AwaitsIdsOutside.eq_of_inside {n : Machine} {l l' : Listener} (awaits : n.AwaitsIdsOutside)
    (history : n.run moves = some (m, during)) (balanced : during.Balanced)
    (inside : during.own = []) (unregistered : id ∉ during.registrations)
    (stored : n.registry.listeners.find? id = some l)
    (found : m.registry.listeners.find? id = some l') : l' = l := by
  obtain ⟨-, hidle⟩ := run_inside history balanced inside
  have unsupplied := not_mem_supplies_of_idle rfl hidle unregistered
  obtain ⟨old, hold, -, -, same⟩ := (awaits.run history).2.find?_cases found unregistered
  rw [← same unsupplied]
  exact Option.some.inj (hold.symm.trans stored)

/-- While a directive sets up, its registration waits. If the id is not registered again meanwhile,
the listener is as it was stored as long as it is there. -/
theorem IsNew.settingUp (new : start.IsNew)
    (history : start.run moves = some (m, before ++ .asked (.invoke target options id) :: during))
    (balanced : during.Balanced) (inside : during.own = []) :
    ∃ (first rest : List Move) (n : Machine) (p : Proposal) (others : List Pending),
      moves = first ++ rest ∧
      start.run first = some (n, before ++ [.asked (.invoke target options id)]) ∧
      n.registry.listeners.find? id = some { p.subscription id with handle := none } ∧
      options = p.options ∧ m.pending = .settingUp (p.subscription id) :: others ∧
      (id ∉ during.registrations → ∀ l, m.registry.listeners.find? id = some l →
        l = { p.subscription id with handle := none }) := by
  obtain ⟨first, rest, n, others, -, -, p, hmoves, hfirst, hrest, waits, -, -, -, hoptions,
    stored⟩ := new.invokes history rfl
  have awaits := (new.awaitsIdsOutside.run hfirst).1
  exact ⟨first, rest, n, p, others, hmoves, hfirst, stored, hoptions,
    (run_inside hrest balanced inside).1.trans waits,
    fun unregistered _ found => awaits.eq_of_inside hrest balanced inside unregistered stored found⟩

/-- What the return of a directive does to the listeners and what passes then, if its registration
stored no other listener than this. -/
inductive Completes (s : Subscription) (r r' : Registry) :
    Except DirectiveError Bool → Trace → Prop where
  | bare (same : r'.listeners = r.listeners) :
      Completes s r r' (.ok false) [.replied (.setUp (.ok false)),
        .returned (.registered (.ok (.active { s with cancellable := false })))]
  | attached (handle : CancelHandle)
      (stored : r.listeners.find? s.id = some { s with handle := none })
      (attached : ∀ id, r'.listeners.find? id =
        if s.id = id then some { s with handle := some handle } else r.listeners.find? id) :
      Completes s r r' (.ok true) [.replied (.setUp (.ok true)), .received (.handle s.id handle),
        .returned (.registered (.ok (.active { s with cancellable := true })))]
  | late (handle : CancelHandle) (gone : r.listeners.find? s.id = none)
      (same : r'.listeners = r.listeners) :
      Completes s r r' (.ok true) [.replied (.setUp (.ok true)), .received (.handle s.id handle),
        .asked (.stop handle)]
  | rejected (e : DirectiveError)
      (stored : r.listeners.find? s.id = some { s with handle := none })
      (removed : ∀ id, r'.listeners.find? id =
        if s.id = id then none else r.listeners.find? id) :
      Completes s r r' (.error e) [.replied (.setUp (.error e)),
        .published (.removed s.id .setupFailed),
        .returned (.registered (.error (.directive s.name e)))]
  | rejectedLate (e : DirectiveError) (gone : r.listeners.find? s.id = none)
      (same : r'.listeners = r.listeners) :
      Completes s r r' (.error e) [.replied (.setUp (.error e)),
        .returned (.registered (.error (.directive s.name e)))]

theorem completes_setUp {r : Registry} {s : Subscription} (result : Except DirectiveError Bool)
    (own : ∀ l, r.listeners.find? s.id = some l → l = { s with handle := none }) :
    Completes s r (r.setUp s result).registry result
      (.replied (.setUp result) :: (r.setUp s result).effects) := by
  match result with
  | .ok false =>
    have uncancellable : r.isCancellable s.id = false := by
      unfold Registry.isCancellable
      cases hfind : r.listeners.find? s.id with
      | none => rfl
      | some l =>
        rw [own l hfind]
        rfl
    have effects : (r.setUp s (.ok false)).effects = [.returned (.registered (.ok (.active
        { s with cancellable := r.isCancellable s.id })))] := rfl
    rw [effects, uncancellable]
    exact .bare rfl
  | .ok true =>
    dsimp only [Registry.setUp]
    split
    next stored =>
      obtain ⟨l, found⟩ := Option.isSome_iff_exists.1 stored
      cases own l found
      have attached (id : ListenerId) : (r.listeners.attach s.id ⟨r.handles⟩).find? id =
          if s.id = id then some { s with handle := some ⟨r.handles⟩ }
          else r.listeners.find? id := by
        rw [Roster.find?_attach]
        split
        next hid =>
          rw [← hid, show r.listeners.find? s.id = _ from found]
          rfl
        next => rfl
      have cancellable : Registry.isCancellable
          { r with handles := r.handles + 1, listeners := r.listeners.attach s.id ⟨r.handles⟩ }
            s.id = true := by
        dsimp only [Registry.isCancellable]
        rw [attached, if_pos rfl]
        rfl
      change Completes s r _ _ [_, _, .returned (.registered (.ok (.active
        { s with cancellable := Registry.isCancellable _ s.id })))]
      rw [cancellable]
      exact .attached _ found attached
    next gone =>
      have gone : r.contains s.id = false := by simpa [Registry.contains] using gone
      exact .late _ (Registry.contains_eq_false_iff.1 gone) rfl
  | .error e =>
    dsimp only [Registry.setUp]
    split
    next l found =>
      cases own l found
      exact .rejected e found fun id => Roster.find?_erase ..
    next gone => exact .rejectedLate e gone rfl

theorem pending_setUp {r : Registry} {s : Subscription} (result : Except DirectiveError Bool)
    (own : ∀ l, r.listeners.find? s.id = some l → l = { s with handle := none }) {p : Pending}
    (h : p ∈ (r.setUp s result).signal.pending) : p = .stoppingLate s := by
  unfold Registry.setUp at h
  split at h
  · cases h
  · dsimp only at h
    split at h
    · cases h
    · exact List.mem_singleton.1 h
  · dsimp only at h
    split at h
    next l found =>
      cases own l found
      cases h
    · cases h

/-- An operation that waits for this leaves all as it is when it goes on. -/
def IsSettled (waiting : Pending) : Prop :=
  ∀ (m m' : Machine) (others : List Pending) (reply : Reply) (seen : Trace),
    m.pending = waiting :: others → m.step (.reply reply) = some (m', seen) →
      m'.registry = m.registry

theorem isSettled_stoppingLate (s : Subscription) : IsSettled (.stoppingLate s) := by
  intro m m' others reply seen waits hstep
  simp only [step, waits] at hstep
  obtain ⟨t, hturn, hfinish⟩ := Option.map_eq_some_iff.1 hstep
  cases hfinish
  cases reply with
  | stopped result =>
    cases hturn
    rfl
  | _ => cases hturn

/-- When a directive returns, its registration goes on with the listener that it has stored, or does
without if that is gone: then it runs the handle at once, or removes nothing. This takes that no
other listener stands under the id. -/
theorem set_up_completes_own_listener (new : start.IsNew)
    (history : start.run moves = some (m, before ++ .asked (.invoke target options id) :: during))
    (balanced : during.Balanced) (inside : during.own = [])
    (own : id ∈ during.registrations → m.registry.contains id = false)
    {result : Except DirectiveError Bool} {seen : Trace}
    (returns : m.step (.reply (.setUp result)) = some (m', seen)) :
    ∃ (first rest : List Move) (n : Machine) (s : Subscription) (others : List Pending),
      moves = first ++ rest ∧
      start.run first = some (n, before ++ [.asked (.invoke target options id)]) ∧
      n.registry.listeners.find? id = some { s with handle := none } ∧ s.id = id ∧
      m.pending = .settingUp s :: others ∧ Completes s m.registry m'.registry result seen ∧
      ∀ waiting, m'.pending = waiting :: others → IsSettled waiting := by
  obtain ⟨first, rest, n, p, others, hmoves, hfirst, stored, -, waits, kept⟩ :=
    new.settingUp history balanced inside
  have mine (l : Listener) (found : m.registry.listeners.find? id = some l) :
      l = { p.subscription id with handle := none } := by
    refine kept (fun registered => ?_) l found
    have gone := Registry.contains_eq_false_iff.1 (own registered)
    cases gone.symm.trans found
  simp only [step, waits] at returns
  cases returns
  refine ⟨first, rest, n, p.subscription id, others, hmoves, hfirst, stored, rfl, waits,
    completes_setUp result mine, fun waiting hpending => ?_⟩
  have hsignal := List.append_cancel_right (hpending.trans List.singleton_append.symm)
  have hlate : waiting = .stoppingLate (p.subscription id) := by
    refine pending_setUp result mine ?_
    rw [hsignal]
    exact List.mem_singleton.2 rfl
  rw [hlate]
  exact isSettled_stoppingLate _

theorem set_up_completes_own_listener_earlyDelivery : ∃ m m' seen,
    counting.IsNew ∧
    counting.run (earlyDelivery.take 4) = some (m, earlyDeliveryTrace.take 5 ++
      .asked (.invoke ⟨0⟩ .nil 7) :: (earlyDeliveryTrace.take 12).drop 6) ∧
    Trace.Balanced ((earlyDeliveryTrace.take 12).drop 6) ∧
    Trace.own ((earlyDeliveryTrace.take 12).drop 6) = [] ∧
    (7 ∈ Trace.registrations ((earlyDeliveryTrace.take 12).drop 6) →
      m.registry.contains 7 = false) ∧
    m.step (.reply (.setUp (.ok true))) = some (m', seen) ∧
    ∃ (first rest : List Move) (n : Machine) (s : Subscription) (others : List Pending),
      earlyDelivery.take 4 = first ++ rest ∧
      counting.run first = some (n, earlyDeliveryTrace.take 5 ++ [.asked (.invoke ⟨0⟩ .nil 7)]) ∧
      n.registry.listeners.find? 7 = some { s with handle := none } ∧ s.id = 7 ∧
      m.pending = .settingUp s :: others ∧ Completes s m.registry m'.registry (.ok true) seen ∧
      ∀ waiting, m'.pending = waiting :: others → IsSettled waiting := by
  have history : counting.run (earlyDelivery.take 4) = some (_, earlyDeliveryTrace.take 5 ++
      .asked (.invoke ⟨0⟩ .nil 7) :: (earlyDeliveryTrace.take 12).drop 6) := rfl
  have balanced : Trace.Balanced ((earlyDeliveryTrace.take 12).drop 6) := rfl
  exact ⟨_, _, _, counting_isNew, history, balanced, rfl, nofun, rfl,
    set_up_completes_own_listener counting_isNew history balanced rfl nofun rfl⟩

def numbered : Machine := { registry := { resolver := .external, ids := .external } }

/-- A directive cancels the listener it sets up and registers another, which gets the same id. -/
def reusedId : List Move :=
  [.call (.register (.ofList [.string "a", .nil]) none false),
    .reply (.resolved (.ok (some (.directive ⟨0⟩)))),
    .reply (.allocated 7),
    .call (.cancel 7),
    .call (.register (.ofList [.string "b", .nil]) none false),
    .reply (.resolved (.ok (some (.directive ⟨1⟩)))),
    .reply (.allocated 7),
    .reply (.setUp (.ok true))]

/-- Where the id was given away again, the handle replaces that of the other listener and does not
run, and a failure removes the other listener. -/
theorem set_up_reaches_other_listener : numbered.IsNew ∧
    ∃ m trace, numbered.run reusedId = some (m, trace) ∧
      (7, (⟨0⟩ : CancelHandle)) ∈ Trace.supplies trace ∧
      m.registry.listeners.find? 7 = some
        { id := 7, name := "b", options := .nil, callback := none, once := false,
          handle := some ⟨0⟩ } ∧
      (∃ m' seen, m.step (.reply (.setUp (.ok true))) = some (m', seen) ∧
        (7, (⟨1⟩ : CancelHandle)) ∈ Trace.supplies seen ∧ Trace.stops seen = [] ∧
        m'.registry.listeners.find? 7 = some
          { id := 7, name := "b", options := .nil, callback := none, once := false,
            handle := some ⟨1⟩ }) ∧
      ∃ m' seen, m.step (.reply (.setUp (.error (.setup "no")))) = some (m', seen) ∧
        Trace.removals seen = [7] ∧ m'.registry.contains 7 = false := by
  exact ⟨⟨rfl, rfl, rfl, rfl⟩, _, _, rfl, .head _, rfl, ⟨_, _, rfl, .head _, rfl, rfl⟩, _, _, rfl,
    rfl, rfl⟩

end Machine

end ScriptEvents
