import ScriptEvents.Directive
import ScriptEvents.Config
import ScriptEvents.Lifecycle
/-!
What passes between a registry, its callers and its collaborators. A caller starts an operation
and in the end has its outcome. On the way the registry may ask collaborators (the resolver, the
id source, a directive, a cancel handle, the evaluator, the handlers) for something and has to
wait for the reply; `Pending` is what it remembers meanwhile. A receipt notes that it has taken an id
for a registration, or a handle for the listener that a directive was invoked for.
-/
namespace ScriptEvents

inductive Operation where
  | register (request : Value) (session : Option Session) (once : Bool)
  | cancel (id : ListenerId)
  | cancelAll (order : List ListenerId)
  | dispatch (id : ListenerId) (payload : HostValue) (isFinal : Bool)

structure CancelReport where
  cancelled : List ListenerId := []
  failures : List (ListenerId × DirectiveError) := []
  deriving DecidableEq, Repr

def CancelReport.isClean (r : CancelReport) : Bool := r.failures.isEmpty

inductive Outcome where
  | registered (result : Except ListenerError Registration)
  | cancelled (found : Bool)
  | tornDown (report : CancelReport)
  | delivered (result : Except ListenerError (Option Value))

inductive Request where
  | resolve (name : Value)
  | allocate (context : AllocationContext)
  | invoke (directive : Directive) (options : Value) (id : ListenerId)
  | stop (handle : CancelHandle)
  | evaluate (expression : Value)
  | handleError (listener : Snapshot) (error : EvalError)
  | handleDispatch (listener : Snapshot) (payload : HostValue) (isFinal : Bool)

inductive Reply where
  | resolved (result : Except ResolveError (Option DirectiveEntry))
  | allocated (id : ListenerId)
  -- The flag says whether the directive returns a cancel handle.
  | setUp (result : Except DirectiveError Bool)
  | stopped (result : Except DirectiveError Unit)
  | evaluated (result : Except EvalError Value)
  | errorHandled (result : Except EvalError Value)
  | dispatchHandled (result : Except ListenerError (Option Value))

structure Proposal where
  name : String
  options : Value
  callback : Option Procedure
  once : Bool
  request : Value
  session : Option Session

namespace Proposal

def context (p : Proposal) : AllocationContext :=
  { session := p.session, name := p.name, request := p.request, callback := p.callback }

def subscription (p : Proposal) (id : ListenerId) : Subscription :=
  { id, name := p.name, options := p.options, callback := p.callback, once := p.once }

end Proposal

/-- What an operation in progress has still to do, by the reply it waits for. -/
inductive Pending where
  | resolving (proposal : Proposal)
  | allocating (proposal : Proposal) (directive : Directive)
  | settingUp (subscription : Subscription)
  -- The listener was gone before its handle came: the handle runs at once.
  | stoppingLate (subscription : Subscription)
  -- The directive refused; a handle the listener had by then runs.
  | rejecting (name : String) (cause : DirectiveError)
  | cancelling
  | tearingDown (id : ListenerId) (left : List ListenerId) (report : CancelReport)
  -- The listener has fired and was removed; its handle runs before the callback.
  | firing (listener : Snapshot) (payload : HostValue)
  | evaluating (listener : Snapshot)
  | recovering (id : ListenerId)
  | handling

inductive Receipt where
  | id (session : Option Session) (id : ListenerId)
  | handle (id : ListenerId) (handle : CancelHandle)
  deriving DecidableEq, Repr

inductive Signal where
  | ask (request : Request) (pending : Pending)
  | done (outcome : Outcome)

def Signal.pending : Signal → List Pending
  | ask _ pending => [pending]
  | done _ => []

/-!
The roster holds the stored listeners, no two of them under one id. It is read through `find?`; the
lemmas say what each operation does to that.
-/

structure Roster where
  listeners : List Listener := []
  distinct : (listeners.map (·.id)).Nodup := by exact .nil

namespace Roster

def empty : Roster := {}

def size (r : Roster) : Nat := r.listeners.length

def isEmpty (r : Roster) : Bool := r.listeners.isEmpty

def find? (r : Roster) (id : ListenerId) : Option Listener := r.listeners.find? (·.id == id)

def contains (r : Roster) (id : ListenerId) : Bool := (r.find? id).isSome

def ids (r : Roster) : List ListenerId := r.listeners.map (·.id)

def sortedIds (r : Roster) : List ListenerId :=
  r.ids.mergeSort fun a b => decide (a ≤ b)

theorem find?_eq_none_iff {r : Roster} {id : ListenerId} : r.find? id = none ↔ id ∉ r.ids := by
  simp [find?, ids, List.find?_eq_none]

theorem id_of_find? {r : Roster} {id : ListenerId} {l : Listener} (h : r.find? id = some l) :
    l.id = id := by
  simpa using List.find?_some h

/-- Stores a listener, unless its id is in use. -/
def insert? (r : Roster) (l : Listener) : Option Roster :=
  if h : r.find? l.id = none then
    some ⟨l :: r.listeners, List.nodup_cons.2 ⟨find?_eq_none_iff.1 h, r.distinct⟩⟩
  else none

def erase (r : Roster) (id : ListenerId) : Roster :=
  ⟨r.listeners.filter (·.id != id), r.distinct.sublist (List.filter_sublist.map _)⟩

/-- Gives the listener of that id a handle, in place of one it may have. -/
def attach (r : Roster) (id : ListenerId) (handle : CancelHandle) : Roster :=
  ⟨r.listeners.map fun l => if l.id = id then { l with handle := some handle } else l, by
    have : ((·.id) ∘ fun l : Listener => if l.id = id then { l with handle := some handle } else l)
        = (·.id) := by
      funext l; simp only [Function.comp]; split <;> rfl
    simpa [List.map_map, this] using r.distinct⟩

@[simp] theorem find?_empty (id : ListenerId) : Roster.empty.find? id = none := rfl

theorem find?_insert? {r r' : Roster} {l : Listener} (h : r.insert? l = some r')
    (id : ListenerId) : r'.find? id = if l.id = id then some l else r.find? id := by
  simp only [insert?] at h
  split at h
  · cases h; by_cases hid : l.id = id <;> simp [find?, hid]
  · cases h

theorem find?_insert?_self {r r' : Roster} {l : Listener} (h : r.insert? l = some r') :
    r'.find? l.id = some l := by
  rw [find?_insert? h, if_pos rfl]

theorem insert?_eq_none_iff {r : Roster} {l : Listener} :
    r.insert? l = none ↔ r.contains l.id = true := by
  simp only [insert?, contains]
  split <;> simp_all [Option.isSome_iff_ne_none]

theorem find?_erase (r : Roster) (erased id : ListenerId) :
    (r.erase erased).find? id = if erased = id then none else r.find? id := by
  simp only [find?, erase, List.find?_filter]
  split
  next h => subst h; simp
  next h =>
    congr 1; funext l
    by_cases hl : l.id = id
    · simp [hl, Ne.symm h]
    · simp [hl]

theorem find?_attach (r : Roster) (attached id : ListenerId) (handle : CancelHandle) :
    (r.attach attached handle).find? id =
      if attached = id then (r.find? id).map fun l => { l with handle := some handle }
      else r.find? id := by
  have hid : ∀ l : Listener,
      (if l.id = attached then { l with handle := some handle } else l).id = l.id := by
    intro l; split <;> rfl
  simp only [find?, attach, List.find?_map, Function.comp_def, hid]
  cases h : r.listeners.find? (·.id == id) with
  | none => simp
  | some l =>
    have hl : l.id = id := by simpa using List.find?_some h
    by_cases ha : attached = id
    · simp [hl, ha]
    · simp [hl, ha, Ne.symm ha]

end Roster

/-!
The registry: the stored listeners, the counters, and which collaborators it has.
-/

inductive Resolver where
  | directory (directory : Directory)
  | external

structure Registry where
  config : Config := {}
  resolver : Resolver := .directory .empty
  ids : IdSource
  hasDispatchHandler : Bool := false
  hasErrorHandler : Bool := false
  listeners : Roster := .empty
  stats : Stats := {}
  -- How many cancel handles directives have supplied so far.
  handles : Nat := 0

namespace Registry

def ofConfig (config : Config) : Registry :=
  { config, ids := .sequential config.firstListenerId }

def contains (r : Registry) (id : ListenerId) : Bool := r.listeners.contains id

theorem contains_eq_false_iff {r : Registry} {id : ListenerId} :
    r.contains id = false ↔ r.listeners.find? id = none := by
  simp [contains, Roster.contains]

def snapshot? (r : Registry) (id : ListenerId) : Option Snapshot :=
  (r.listeners.find? id).map Listener.snapshot

def isCancellable (r : Registry) (id : ListenerId) : Bool :=
  ((r.listeners.find? id).bind (·.handle)).isSome

def listenerIds (r : Registry) : List ListenerId := r.listeners.sortedIds

/-- Changes the directory, if the registry has one of its own. -/
def editDirectory (r : Registry) (change : Directory.Change) : Registry :=
  match r.resolver with
  | .directory d => { r with resolver := .directory (Directory.apply d change) }
  | .external => r

@[simp] theorem editDirectory_listeners (r : Registry) (change : Directory.Change) :
    (r.editDirectory change).listeners = r.listeners := by
  unfold editDirectory; split <;> rfl

@[simp] theorem editDirectory_ids (r : Registry) (change : Directory.Change) :
    (r.editDirectory change).ids = r.ids := by
  unfold editDirectory; split <;> rfl

@[simp] theorem editDirectory_handles (r : Registry) (change : Directory.Change) :
    (r.editDirectory change).handles = r.handles := by
  unfold editDirectory; split <;> rfl

@[simp] theorem editDirectory_hasDispatchHandler (r : Registry) (change : Directory.Change) :
    (r.editDirectory change).hasDispatchHandler = r.hasDispatchHandler := by
  unfold editDirectory; split <;> rfl

def record (r : Registry) (e : LifecycleEvent) : Registry :=
  { r with stats := r.stats.record e.kind }

@[simp] theorem record_listeners (r : Registry) (e : LifecycleEvent) :
    (r.record e).listeners = r.listeners := rfl

@[simp] theorem record_ids (r : Registry) (e : LifecycleEvent) : (r.record e).ids = r.ids := rfl

@[simp] theorem record_handles (r : Registry) (e : LifecycleEvent) :
    (r.record e).handles = r.handles := rfl

@[simp] theorem record_hasDispatchHandler (r : Registry) (e : LifecycleEvent) :
    (r.record e).hasDispatchHandler = r.hasDispatchHandler := rfl

open Text.Inspected in
def inspected (r : Registry) : String :=
  fields "ListenerRegistry"
    [("listeners", Text.integer r.listeners.size), ("config", r.config.inspected)]

end Registry

structure Dispatcher where
  id : ListenerId
  deriving DecidableEq, Repr

namespace Dispatcher

def isActive (d : Dispatcher) (r : Registry) : Bool := r.contains d.id

def dispatch (d : Dispatcher) (payload : HostValue) (isFinal : Bool) : Operation :=
  .dispatch d.id payload isFinal

open Text.Inspected in
def inspected (d : Dispatcher) : String :=
  fields "Dispatcher" [("id", Text.integer d.id.toInt)]

end Dispatcher

end ScriptEvents
