import ScriptEvents.Proofs.Machine.Act
/-!
Courses: all the ways in which a turn can go, by what starts it. Each is made of acts, so a history
of a machine is a row of acts of its registry.
-/
namespace ScriptEvents

inductive Cause where
  | call (operation : Operation)
  | reply (waiting : Pending) (reply : Reply)

inductive Operation.Proposes : Operation → Proposal → Prop where
  | register {request : Value} {session : Option Session} {once : Bool} {parts : ListenRequest}
      {name : String} (parsed : ListenRequest.ofValue request = .ok parts)
      (named : parts.name.key? = some name) :
      Proposes (.register request session once)
        { name, options := parts.options, callback := parts.callback, once, request, session }

namespace Cause

inductive Proposes : Cause → Proposal → Prop where
  | call {operation : Operation} {p : Proposal} (h : operation.Proposes p) :
      Proposes (.call operation) p
  | resolving (p : Proposal) (reply : Reply) : Proposes (.reply (.resolving p) reply) p
  | allocating (p : Proposal) (target : Directive) (reply : Reply) :
      Proposes (.reply (.allocating p target) reply) p

inductive TearsDown : Cause → CancelReport → List ListenerId → Prop where
  | call (order : List ListenerId) : TearsDown (.call (.cancelAll order)) {} order
  | stopped (id : ListenerId) (left : List ListenerId) (report : CancelReport) :
      TearsDown (.reply (.tearingDown id left report) (.stopped (.ok ()))) report left
  | failed (id : ListenerId) (left : List ListenerId) (report : CancelReport)
      (e : DirectiveError) :
      TearsDown (.reply (.tearingDown id left report) (.stopped (.error e)))
        { report with failures := report.failures ++ [(id, e)] } left

def pending : Cause → List Pending
  | call _ => []
  | reply waiting _ => [waiting]

def effect : Cause → Effect
  | call operation => .called operation
  | reply _ answer => .replied answer

theorem effect_isPlain (cause : Cause) : cause.effect.isPlain = true := by
  cases cause <;> rfl

@[simp] theorem registrations_cons (cause : Cause) (trace : Trace) :
    Trace.registrations (cause.effect :: trace) = trace.registrations := by
  cases cause <;> rfl

@[simp] theorem allocations_cons (cause : Cause) (trace : Trace) :
    Trace.allocations (cause.effect :: trace) = trace.allocations := by
  cases cause <;> rfl

@[simp] theorem supplies_cons (cause : Cause) (trace : Trace) :
    Trace.supplies (cause.effect :: trace) = trace.supplies := by
  cases cause <;> rfl

end Cause

namespace Registry

def turn? (r : Registry) : Cause → Option Turn
  | .call operation => some (r.start operation)
  | .reply waiting reply => r.resume? waiting reply

inductive Finishes (r : Registry) : Cause → Outcome → Prop where
  | malformed {request : Value} {session : Option Session} {once : Bool} {e : ListenerError}
      (h : ListenRequest.ofValue request = .error e) :
      Finishes r (.call (.register request session once)) (.registered (.error e))
  | unnamed {request : Value} {session : Option Session} {once : Bool} {parts : ListenRequest}
      (parsed : ListenRequest.ofValue request = .ok parts) (h : parts.name.key? = none) :
      Finishes r (.call (.register request session once))
        (.registered (.error (.resolve (.invalidName parts.name.typeName))))
  | unresolved {cause : Cause} {p : Proposal} (e : ResolveError) (proposed : cause.Proposes p) :
      Finishes r cause (.registered (.error (.resolve e)))
  | unknown {cause : Cause} {p : Proposal} (proposed : cause.Proposes p) :
      Finishes r cause (.registered (.error (.unknownDirective p.name)))
  | uncallable {cause : Cause} {p : Proposal} (proposed : cause.Proposes p) :
      Finishes r cause (.registered (.error (.invalidDirective p.name)))
  | setUp (s : Subscription) :
      Finishes r (.reply (.settingUp s) (.setUp (.ok false)))
        (.registered (.ok (.active { s with cancellable := r.isCancellable s.id })))
  | stoppedLate (s : Subscription) (result : Except DirectiveError Unit) :
      Finishes r (.reply (.stoppingLate s) (.stopped result))
        (.registered (.ok (.active { s with cancellable := r.isCancellable s.id })))
  | rejectedLate {s : Subscription} (e : DirectiveError) (gone : r.listeners.find? s.id = none) :
      Finishes r (.reply (.settingUp s) (.setUp (.error e)))
        (.registered (.error (.directive s.name e)))
  | rejected (name : String) (e : DirectiveError) (result : Except DirectiveError Unit) :
      Finishes r (.reply (.rejecting name e) (.stopped result))
        (.registered (.error (.directive name e)))
  | cancelledNone {id : ListenerId} (gone : r.listeners.find? id = none) :
      Finishes r (.call (.cancel id)) (.cancelled false)
  | cancelled (result : Except DirectiveError Unit) :
      Finishes r (.reply .cancelling (.stopped result)) (.cancelled true)
  | deliveredNone {id : ListenerId} (payload : HostValue) (isFinal : Bool)
      (gone : r.listeners.find? id = none) :
      Finishes r (.call (.dispatch id payload isFinal)) (.delivered (.ok none))
  | delivered (listener : Snapshot) (value : Value) :
      Finishes r (.reply (.evaluating listener) (.evaluated (.ok value)))
        (.delivered (.ok (some value)))
  | recovered (id : ListenerId) (value : Value) :
      Finishes r (.reply (.recovering id) (.errorHandled (.ok value)))
        (.delivered (.ok (some value)))
  | unrecovered (id : ListenerId) (e : EvalError) :
      Finishes r (.reply (.recovering id) (.errorHandled (.error e)))
        (.delivered (.error (.evaluation id e)))
  | handled (result : Except ListenerError (Option Value)) :
      Finishes r (.reply .handling (.dispatchHandled result)) (.delivered result)

inductive Course (r : Registry) : Cause → Turn → Prop where
  | finish {cause : Cause} (outcome : Outcome) (ends : r.Finishes cause outcome) :
      Course r cause (r.publish [] (.done outcome))
  | resolve {cause : Cause} (name : Value) (p : Proposal) (proposed : cause.Proposes p) :
      Course r cause (r.publish [] (.ask (.resolve name) (.resolving p)))
  | allocate {cause : Cause} (p : Proposal) (target : Directive) (outside : r.ids = .external)
      (proposed : cause.Proposes p) :
      Course r cause (r.publish [] (.ask (.allocate p.context) (.allocating p target)))
  | ignore {cause : Cause} (name : String) {p : Proposal} (proposed : cause.Proposes p)
      (named : p.name = name) : Course r cause (r.ignore name)
  | refuse {cause : Cause} {p : Proposal} {id : ListenerId} {ids : IdSource}
      (given : r.Assigns p.session id ids) (proposed : cause.Proposes p)
      (barred : id = .invalid ∨ r.contains id = true) :
      Course r cause (({ r with ids }.refuse (.invalidId id)).receive (.id p.session id))
  | store {cause : Cause} {p : Proposal} {id : ListenerId} {ids : IdSource} {listeners : Roster}
      (target : Directive) (given : r.Assigns p.session id ids)
      (vacant : r.listeners.insert? { p.subscription id with } = some listeners)
      (proposed : cause.Proposes p) (valid : id ≠ .invalid) :
      Course r cause
        (({ r with ids, listeners }.publish [.registered id p.name p.once]
          (.ask (.invoke target p.options id) (.settingUp (p.subscription id)))).receive
            (.id p.session id))
  | supply {s : Subscription} (stored : r.contains s.id = true) :
      Course r (.reply (.settingUp s) (.setUp (.ok true)))
        (({ r with
          handles := r.handles + 1
          listeners := r.listeners.attach s.id ⟨r.handles⟩ }.active s).receive
            (.handle s.id ⟨r.handles⟩))
  | supplyLate {s : Subscription} (gone : r.contains s.id = false) :
      Course r (.reply (.settingUp s) (.setUp (.ok true)))
        (({ r with handles := r.handles + 1 }.publish []
          (.ask (.stop ⟨r.handles⟩) (.stoppingLate s))).receive (.handle s.id ⟨r.handles⟩))
  | reject {s : Subscription} {l : Listener} (e : DirectiveError)
      (found : r.listeners.find? s.id = some l) :
      Course r (.reply (.settingUp s) (.setUp (.error e)))
        ((r.remove s.id).publish [.removed s.id .setupFailed]
          (stop l (.rejecting s.name e) (.done (.registered (.error (.directive s.name e))))))
  | cancel {id : ListenerId} {l : Listener} (found : r.listeners.find? id = some l) :
      Course r (.call (.cancel id))
        ((r.remove id).publish [.removed id .cancelled]
          (stop l .cancelling (.done (.cancelled true))))
  | tearDown {cause : Cause} (report : CancelReport) (left : List ListenerId)
      (reached : cause.TearsDown report left) : Course r cause (r.tearDown report left)
  | handOver {id : ListenerId} {l : Listener} (payload : HostValue) (isFinal : Bool)
      (found : r.listeners.find? id = some l) (handled : r.hasDispatchHandler = true) :
      Course r (.call (.dispatch id payload isFinal))
        (r.publish [.dispatched id isFinal]
          (.ask (.handleDispatch l.snapshot payload isFinal) .handling))
  | deliver {id : ListenerId} {l : Listener} (payload : HostValue)
      (found : r.listeners.find? id = some l) (alone : r.hasDispatchHandler = false)
      (stays : l.once = false) :
      Course r (.call (.dispatch id payload false))
        (r.publish [.dispatched id false] (r.delivery l.snapshot payload))
  | fire {id : ListenerId} {l : Listener} (payload : HostValue) (isFinal : Bool)
      (found : r.listeners.find? id = some l) (alone : r.hasDispatchHandler = false)
      (last : l.once = true ∨ isFinal = true) :
      Course r (.call (.dispatch id payload isFinal))
        ((r.remove id).publish [.dispatched id isFinal, .removed id .fired]
          (stop l (.firing l.snapshot payload) (r.delivery l.snapshot payload)))
  | callBack (listener : Snapshot) (payload : HostValue) (result : Except DirectiveError Unit) :
      Course r (.reply (.firing listener payload) (.stopped result))
        (r.publish [] (r.delivery listener payload))
  | fail (listener : Snapshot) (e : EvalError) :
      Course r (.reply (.evaluating listener) (.evaluated (.error e)))
        (r.evaluated listener (.error e))

theorem enroll_course (r : Registry) {cause : Cause} {ids : IdSource} (p : Proposal)
    (target : Directive) (id : ListenerId) (given : r.Assigns p.session id ids)
    (proposed : cause.Proposes p) : Course r cause ({ r with ids }.enroll p target id) := by
  unfold enroll store
  split
  next invalid => exact .refuse given proposed (.inl invalid)
  next valid =>
    split
    next vacant => exact .store target given vacant proposed valid
    next taken => exact .refuse given proposed (.inr (Roster.insert?_eq_none_iff.1 taken))

theorem resolved_course (r : Registry) {cause : Cause} (p : Proposal)
    (result : Except ResolveError (Option DirectiveEntry)) (proposed : cause.Proposes p) :
    Course r cause (r.resolved p result) := by
  unfold resolved
  split
  next e => exact .finish _ (.unresolved e proposed)
  next => exact .finish _ (.unknown proposed)
  next => exact .ignore _ proposed rfl
  next => exact .finish _ (.uncallable proposed)
  · split
    next given => exact enroll_course r p _ _ (.inl given) proposed
    next h =>
      refine .allocate _ _ ?_ proposed
      cases hids : r.ids <;> simp_all [IdSource.next?]

theorem register_course (r : Registry) (request : Value) (session : Option Session)
    (once : Bool) :
    Course r (.call (.register request session once)) (r.register request session once) := by
  unfold register
  split
  next h => exact .finish _ (.malformed h)
  next parsed =>
    split
    next h => exact .finish _ (.unnamed parsed h)
    next named =>
      have proposed : Cause.Proposes (.call (.register request session once)) _ :=
        .call (.register parsed named)
      dsimp only
      split
      · exact .ignore _ proposed rfl
      · split
        · exact resolved_course r _ _ proposed
        · exact .resolve _ _ proposed

theorem setUp_course (r : Registry) (s : Subscription) (result : Except DirectiveError Bool) :
    Course r (.reply (.settingUp s) (.setUp result)) (r.setUp s result) := by
  unfold setUp
  split
  · exact .finish _ (.setUp s)
  · dsimp only
    split
    next stored => exact .supply stored
    next gone => exact .supplyLate (by simpa [contains] using gone)
  next e =>
    dsimp only
    split
    next found => exact .reject _ found
    next gone => exact .finish _ (.rejectedLate e gone)

theorem cancel_course (r : Registry) (id : ListenerId) :
    Course r (.call (.cancel id)) (r.cancel id) := by
  unfold cancel
  split
  next found => exact .cancel found
  next gone => exact .finish _ (.cancelledNone gone)

theorem dispatch_course (r : Registry) (id : ListenerId) (payload : HostValue) (isFinal : Bool) :
    Course r (.call (.dispatch id payload isFinal)) (r.dispatch id payload isFinal) := by
  unfold dispatch
  split
  next gone => exact .finish _ (.deliveredNone payload isFinal gone)
  next l found =>
    split
    next handled => exact .handOver payload isFinal found handled
    next alone =>
      have alone : r.hasDispatchHandler = false := by simpa using alone
      split
      next last => exact .fire payload isFinal found alone (by simpa using last)
      next stays =>
        obtain ⟨honce, rfl⟩ : l.once = false ∧ isFinal = false := by simpa using stays
        exact .deliver payload found alone honce

theorem evaluated_course (r : Registry) (listener : Snapshot) (result : Except EvalError Value) :
    Course r (.reply (.evaluating listener) (.evaluated result)) (r.evaluated listener result) := by
  cases result with
  | ok value => exact .finish _ (.delivered listener value)
  | error e => exact .fail listener e

theorem start_course (r : Registry) (operation : Operation) :
    Course r (.call operation) (r.start operation) := by
  cases operation with
  | register request session once => exact register_course ..
  | cancel id => exact cancel_course ..
  | cancelAll order => exact .tearDown _ _ (.call order)
  | dispatch id payload isFinal => exact dispatch_course ..

theorem resume_course {r : Registry} {waiting : Pending} {reply : Reply} {t : Turn}
    (h : r.resume? waiting reply = some t)
    (outside : ∀ p target, waiting = .allocating p target → r.ids = .external) :
    Course r (.reply waiting reply) t := by
  unfold resume? at h
  split at h
  case h_14 => cases h
  all_goals cases h
  · exact resolved_course r _ _ (.resolving ..)
  · have hids := outside _ _ rfl
    exact enroll_course r _ _ _ (.inr ⟨hids, hids⟩) (.allocating ..)
  · exact setUp_course ..
  · exact .finish _ (.stoppedLate ..)
  · exact .finish _ (.rejected ..)
  · exact .finish _ (.cancelled _)
  · exact .tearDown _ _ (.stopped ..)
  · exact .tearDown _ _ (.failed ..)
  · exact .callBack ..
  · exact evaluated_course ..
  · exact .finish _ (.recovered ..)
  · exact .finish _ (.unrecovered ..)
  · exact .finish _ (.handled _)

end Registry

end ScriptEvents
