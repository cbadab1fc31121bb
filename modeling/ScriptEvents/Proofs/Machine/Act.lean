import ScriptEvents.Proofs.Machine.Trace
/-!
Acts: the least things a registry does, each with all that passes then. Every turn is made of them,
so what each act preserves, the registry preserves whatever its collaborators do.
-/
namespace ScriptEvents

def Listener.stopping (l : Listener) : Trace :=
  match l.handle with
  | some handle => [.asked (.stop handle)]
  | none => []

/-- Calls, replies and outcomes, and the requests that are about no listener's place. -/
def Effect.isPlain : Effect → Bool
  | called _ | replied _ | returned _ => true
  | asked (.resolve _) | asked (.allocate _) | asked (.evaluate _) | asked (.handleError ..) => true
  | _ => false

theorem Effect.event?_of_isPlain {e : Effect} (h : e.isPlain = true) : e.event? = none := by
  cases e with
  | published => cases h
  | _ => rfl

theorem Effect.allocation?_of_isPlain {e : Effect} (h : e.isPlain = true) :
    e.allocation? = none := by
  cases e with
  | received => cases h
  | _ => rfl

@[simp] theorem Listener.log_stopping (l : Listener) : Trace.log l.stopping = [] := by
  unfold stopping
  split <;> rfl

@[simp] theorem Listener.allocations_stopping (l : Listener) :
    Trace.allocations l.stopping = [] := by
  unfold stopping
  split <;> rfl

namespace Registry

/-- The id source gives this id to a registration of that session, and goes on as `ids`. -/
def Assigns (r : Registry) (session : Option Session) (id : ListenerId) (ids : IdSource) : Prop :=
  r.ids.next? session = some (id, ids) ∨ r.ids = .external ∧ ids = .external

inductive Act : Registry → Trace → Registry → Prop where
  | plain {r : Registry} {e : Effect} (h : e.isPlain = true) : Act r [e] r
  | edit {r : Registry} (change : Directory.Change) : Act r [] (r.editDirectory change)
  | assign {r : Registry} {session : Option Session} {id : ListenerId} {ids : IdSource}
      (given : r.Assigns session id ids) :
      Act r [.received (.id session id)] { r with ids }
  | store {r : Registry} {l : Listener} {listeners : Roster} (target : Directive)
      (vacant : r.listeners.insert? l = some listeners) (bare : l.handle = none) :
      Act r [.published (.registered l.id l.name l.once), .asked (.invoke target l.options l.id)]
        ({ r with listeners }.record (.registered l.id l.name l.once))
  | ignore {r : Registry} (name : String) :
      Act r [.published (.ignored name)] (r.record (.ignored name))
  | fail {r : Registry} (id : ListenerId) (message : String) :
      Act r [.published (.callbackFailed id message)] (r.record (.callbackFailed id message))
  | deliver {r : Registry} {l : Listener} {id : ListenerId}
      (found : r.listeners.find? id = some l) (alone : r.hasDispatchHandler = false)
      (stays : l.once = false) :
      Act r [.published (.dispatched id false)] (r.record (.dispatched id false))
  | handOver {r : Registry} {l : Listener} {id : ListenerId} (payload : HostValue) (isFinal : Bool)
      (found : r.listeners.find? id = some l) (handled : r.hasDispatchHandler = true) :
      Act r [.published (.dispatched id isFinal),
          .asked (.handleDispatch l.snapshot payload isFinal)]
        (r.record (.dispatched id isFinal))
  | supply {r : Registry} {id : ListenerId} (stored : r.contains id = true) :
      Act r [.received (.handle id ⟨r.handles⟩)]
        { r with handles := r.handles + 1, listeners := r.listeners.attach id ⟨r.handles⟩ }
  | supplyLate {r : Registry} {id : ListenerId} (gone : r.contains id = false) :
      Act r [.received (.handle id ⟨r.handles⟩), .asked (.stop ⟨r.handles⟩)]
        { r with handles := r.handles + 1 }
  | remove {r : Registry} {l : Listener} {id : ListenerId} (reason : RemovalReason)
      (found : r.listeners.find? id = some l) (unfired : reason ≠ .fired) :
      Act r (.published (.removed id reason) :: l.stopping)
        ((r.remove id).record (.removed id reason))
  | fire {r : Registry} {l : Listener} {id : ListenerId} {isFinal : Bool}
      (found : r.listeners.find? id = some l) (alone : r.hasDispatchHandler = false)
      (last : l.once = true ∨ isFinal = true) :
      Act r (.published (.dispatched id isFinal) :: .published (.removed id .fired) :: l.stopping)
        (((r.remove id).record (.dispatched id isFinal)).record (.removed id .fired))

inductive Acts : Registry → Trace → Registry → Prop where
  | nil {r : Registry} : Acts r [] r
  | cons {r s t : Registry} {now later : Trace} (first : Act r now s) (rest : Acts s later t) :
      Acts r (now ++ later) t

theorem Act.acts {r s : Registry} {seen : Trace} (h : Act r seen s) : Acts r seen s := by
  simpa using Acts.cons h .nil

theorem Acts.append {r s t : Registry} {now later : Trace} (h : Acts r now s)
    (rest : Acts s later t) : Acts r (now ++ later) t := by
  induction h with
  | nil => exact rest
  | cons first _ ih =>
    rw [List.append_assoc]
    exact .cons first (ih rest)

theorem Assigns.ids_eq_external {r : Registry} {session : Option Session} {id : ListenerId}
    {ids : IdSource} (given : r.Assigns session id ids) (outside : r.ids = .external) :
    ids = .external := by
  rcases given with hnext | ⟨-, hids⟩
  · rw [outside] at hnext
    cases hnext
  · exact hids

theorem Act.ids_eq_external {r s : Registry} {seen : Trace} (h : Act r seen s)
    (outside : r.ids = .external) : s.ids = .external := by
  cases h with
  | assign given => exact given.ids_eq_external outside
  | _ => simpa using outside

theorem Act.hasDispatchHandler_eq {r s : Registry} {seen : Trace} (h : Act r seen s) :
    s.hasDispatchHandler = r.hasDispatchHandler := by
  cases h <;> simp

theorem Act.config_eq {r s : Registry} {seen : Trace} (h : Act r seen s) : s.config = r.config := by
  cases h with
  | edit change => unfold editDirectory; split <;> rfl
  | _ => rfl

theorem Acts.config_eq {r s : Registry} {seen : Trace} (acts : Acts r seen s) :
    s.config = r.config := by
  induction acts with
  | nil => rfl
  | cons first _ ih => exact ih.trans first.config_eq

theorem Acts.hasDispatchHandler_eq {r s : Registry} {seen : Trace} (acts : Acts r seen s) :
    s.hasDispatchHandler = r.hasDispatchHandler := by
  induction acts with
  | nil => rfl
  | cons first _ ih => exact ih.trans first.hasDispatchHandler_eq

theorem Acts.ids_eq_external {r s : Registry} {seen : Trace} (acts : Acts r seen s)
    (outside : r.ids = .external) : s.ids = .external := by
  induction acts with
  | nil => exact outside
  | cons first _ ih => exact ih (first.ids_eq_external outside)

end Registry

end ScriptEvents
