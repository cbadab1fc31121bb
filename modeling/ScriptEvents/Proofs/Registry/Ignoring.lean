import ScriptEvents.Proofs.Machine.Step
/-!
Ignoring: whether a name is ignored by the configuration or by an entry of the directory makes no
difference to anybody, as long as nobody changes the entries of those names.
-/
namespace ScriptEvents

namespace Directory

def Change.names : Change → List String
  | .add name _ | .remove name => [name]
  | .addBundle bundle => bundle.directives.keys

def ignoring (d : Directory) (names : List String) : Directory :=
  names.foldl (fun d name => d.apply (.add name .ignore)) d

theorem find?_ignoring (d : Directory) (names : List String) (name : String) :
    (d.ignoring names).find? name = if name ∈ names then some .ignore else d.find? name := by
  induction names generalizing d with
  | nil => rfl
  | cons first names ih =>
    change (ignoring (d.insert first .ignore) names).find? name = _
    rw [ih, Dictionary.find?_insert]
    by_cases hfirst : name = first <;> by_cases hnames : name ∈ names <;> simp [hfirst, hnames]

theorem insert_ignoring (d : Directory) {names : List String} {name : String}
    (entry : DirectiveEntry) (spared : name ∉ names) :
    (d.ignoring names).insert name entry = ignoring (d.insert name entry) names := by
  ext other : 1
  rw [Dictionary.find?_insert, find?_ignoring, find?_ignoring, Dictionary.find?_insert]
  by_cases h : other = name
  · rw [if_pos h, if_pos h, if_neg (h ▸ spared)]
  · rw [if_neg h, if_neg h]

theorem erase_ignoring (d : Directory) {names : List String} {name : String}
    (spared : name ∉ names) : (d.ignoring names).erase name = ignoring (d.erase name) names := by
  ext other : 1
  rw [Dictionary.find?_erase, find?_ignoring, find?_ignoring, Dictionary.find?_erase]
  by_cases h : other = name
  · rw [if_pos h, if_pos h, if_neg (h ▸ spared)]
  · rw [if_neg h, if_neg h]

theorem insertAll_ignoring (d : Directory) {names : List String}
    {entries : List (String × DirectiveEntry)}
    (spared : ∀ name ∈ entries.map Prod.fst, name ∉ names) :
    (d.ignoring names).insertAll entries = ignoring (d.insertAll entries) names := by
  induction entries generalizing d with
  | nil => rfl
  | cons e rest ih =>
    rw [List.map_cons, List.forall_mem_cons] at spared
    change ((d.ignoring names).insert e.1 e.2).insertAll rest = _
    rw [insert_ignoring d e.2 spared.1, ih _ spared.2]
    rfl

theorem apply_ignoring (d : Directory) {names : List String} {change : Change}
    (spared : ∀ name ∈ change.names, name ∉ names) :
    (d.ignoring names).apply change = ignoring (d.apply change) names := by
  cases change with
  | add name entry => exact insert_ignoring d entry (spared name List.mem_cons_self)
  | addBundle bundle => exact insertAll_ignoring d spared
  | remove name => exact erase_ignoring d (spared name List.mem_cons_self)

end Directory

namespace Registry

variable {r : Registry} {names : List String} {resolver : Resolver}

def redirect (r : Registry) (names : List String) (resolver : Resolver) : Registry :=
  { r with config := { r.config with ignoredDirectives := names }, resolver }

/-- The registry that has entries of its own directory ignore what its configuration would. -/
def ignoreByDirectory (r : Registry) : Registry :=
  match r.resolver with
  | .directory d => r.redirect [] (.directory (d.ignoring r.config.ignoredDirectives))
  | .external => r

/-- What the registry itself knows of a name; nothing if somebody outside has to be asked. -/
def known? (r : Registry) (name : String) : Option (Option DirectiveEntry) :=
  if name ∈ r.config.ignoredDirectives then some (some .ignore)
  else match r.resolver with
    | .directory d => some (d.find? name)
    | .external => none

end Registry

def Turn.redirect (t : Turn) (names : List String) (resolver : Resolver) : Turn :=
  { t with registry := t.registry.redirect names resolver }

namespace Registry

variable {r : Registry} {names : List String} {resolver : Resolver}

@[simp] theorem redirect_listeners : (r.redirect names resolver).listeners = r.listeners := rfl

@[simp] theorem redirect_ids : (r.redirect names resolver).ids = r.ids := rfl

@[simp] theorem redirect_hasDispatchHandler :
    (r.redirect names resolver).hasDispatchHandler = r.hasDispatchHandler := rfl

@[simp] theorem redirect_delivery (listener : Snapshot) (payload : HostValue) :
    (r.redirect names resolver).delivery listener payload = r.delivery listener payload := rfl

theorem store_redirect (p : Proposal) (target : Directive) (id : ListenerId) :
    (r.redirect names resolver).store p target id =
      (r.store p target id).redirect names resolver := by
  by_cases invalid : id = .invalid
  · simp only [store, if_pos invalid]
    rfl
  · cases vacant : r.listeners.insert? { p.subscription id with } <;>
      simp only [store, if_neg invalid, redirect_listeners, vacant] <;> rfl

theorem enroll_redirect (p : Proposal) (target : Directive) (id : ListenerId) :
    (r.redirect names resolver).enroll p target id =
      (r.enroll p target id).redirect names resolver := by
  unfold enroll
  rw [store_redirect]
  rfl

theorem resolved_redirect (p : Proposal) (result : Except ResolveError (Option DirectiveEntry)) :
    (r.redirect names resolver).resolved p result =
      (r.resolved p result).redirect names resolver := by
  match result with
  | .error _ | .ok none | .ok (some .ignore) | .ok (some (.notCallable _)) => rfl
  | .ok (some (.directive target)) =>
    cases next : r.ids.next? p.session with
    | none =>
      simp only [resolved, redirect_ids, next]
      rfl
    | some given =>
      simp only [resolved, redirect_ids, next]
      have enrolled := @enroll_redirect { r with ids := given.2 } names resolver p target given.1
      exact enrolled

theorem setUp_redirect (s : Subscription) (result : Except DirectiveError Bool) :
    (r.redirect names resolver).setUp s result =
      (r.setUp s result).redirect names resolver := by
  match result with
  | .ok false => rfl
  | .ok true =>
    change (if r.contains s.id = true then _ else _) =
      (if r.contains s.id = true then _ else _ : Turn).redirect names resolver
    by_cases stored : r.contains s.id = true
    · rw [if_pos stored, if_pos stored]
      rfl
    · rw [if_neg stored, if_neg stored]
      rfl
  | .error e =>
    cases found : r.listeners.find? s.id <;> simp only [setUp, redirect_listeners, found] <;> rfl

theorem cancel_redirect (id : ListenerId) :
    (r.redirect names resolver).cancel id = (r.cancel id).redirect names resolver := by
  cases found : r.listeners.find? id <;> simp only [cancel, redirect_listeners, found] <;> rfl

theorem tearDown_redirect (report : CancelReport) (left : List ListenerId) :
    (r.redirect names resolver).tearDown report left =
      (r.tearDown report left).redirect names resolver := by
  induction r, report, left using tearDown.induct with
  | case1 => rfl
  | case2 r report id left l found handle held =>
    simp only [tearDown, redirect_listeners, found, held]
    rfl
  | case3 r report id left l found removed now bare ih =>
    simp only [tearDown, redirect_listeners, found, bare]
    exact congrArg (fun t => { t with events := removed :: t.events }) ih
  | case4 r report id left absent ih =>
    simp only [tearDown, redirect_listeners, absent]
    exact ih

theorem dispatch_redirect (id : ListenerId) (payload : HostValue) (isFinal : Bool) :
    (r.redirect names resolver).dispatch id payload isFinal =
      (r.dispatch id payload isFinal).redirect names resolver := by
  cases found : r.listeners.find? id with
  | none =>
    simp only [dispatch, redirect_listeners, found]
    rfl
  | some l =>
    cases handled : r.hasDispatchHandler with
    | true =>
      simp only [dispatch, redirect_listeners, found, redirect_hasDispatchHandler, handled, if_true]
      rfl
    | false =>
      cases last : l.once || isFinal <;>
        simp only [dispatch, redirect_listeners, found, redirect_hasDispatchHandler, handled, last,
          redirect_delivery, Bool.false_eq_true, if_true, if_false] <;>
        rfl

theorem evaluated_redirect (listener : Snapshot) (result : Except EvalError Value) :
    (r.redirect names resolver).evaluated listener result =
      (r.evaluated listener result).redirect names resolver := by
  cases result <;> rfl

theorem resume?_redirect (waiting : Pending) (reply : Reply) :
    (r.redirect names resolver).resume? waiting reply =
      (r.resume? waiting reply).map (Turn.redirect · names resolver) := by
  cases waiting with
  | resolving p =>
    cases reply with
    | resolved result => exact congrArg some (resolved_redirect p result)
    | _ => rfl
  | allocating p target =>
    cases reply with
    | allocated id => exact congrArg some (enroll_redirect p target id)
    | _ => rfl
  | settingUp s =>
    cases reply with
    | setUp result => exact congrArg some (setUp_redirect s result)
    | _ => rfl
  | tearingDown id left report =>
    match reply with
    | .stopped (.ok _) => exact congrArg some (tearDown_redirect report left)
    | .stopped (.error e) => exact congrArg some (tearDown_redirect _ left)
    | .resolved _ | .allocated _ | .setUp _ | .evaluated _ | .errorHandled _
    | .dispatchHandled _ => rfl
  | evaluating listener =>
    cases reply with
    | evaluated result => exact congrArg some (evaluated_redirect listener result)
    | _ => rfl
  | recovering id =>
    match reply with
    | .errorHandled (.ok _) | .errorHandled (.error _) => rfl
    | .resolved _ | .allocated _ | .setUp _ | .evaluated _ | .stopped _
    | .dispatchHandled _ => rfl
  | _ => cases reply <;> rfl

/-- A request is judged before its name is looked up, and no name is looked up twice. -/
theorem register_eq (request : Value) (session : Option Session) (once : Bool) :
    r.register request session once = match ListenRequest.ofValue request with
      | .error e => r.refuse e
      | .ok parts => match parts.name.key? with
        | none => r.refuse (.resolve (.invalidName parts.name.typeName))
        | some name =>
          let p : Proposal :=
            { name, options := parts.options, callback := parts.callback, once, request, session }
          match r.known? name with
          | some entry => r.resolved p (.ok entry)
          | none => r.publish [] (.ask (.resolve parts.name) (.resolving p)) := by
  unfold register
  cases ListenRequest.ofValue request with
  | error e => rfl
  | ok parts =>
    cases key : parts.name.key? with
    | none => simp only [key]
    | some name =>
      simp only [key, known?]
      by_cases ignored : name ∈ r.config.ignoredDirectives
      · simp only [if_pos ignored]
        rfl
      · simp only [if_neg ignored]
        cases r.resolver with
        | directory d => simp only [Directory.resolve, key]
        | external => rfl

theorem register_redirect (same : ∀ name, (r.redirect names resolver).known? name = r.known? name)
    (request : Value) (session : Option Session) (once : Bool) :
    (r.redirect names resolver).register request session once =
      (r.register request session once).redirect names resolver := by
  rw [register_eq, register_eq]
  cases ListenRequest.ofValue request with
  | error e => rfl
  | ok parts =>
    cases key : parts.name.key? with
    | none =>
      simp only [key]
      rfl
    | some name =>
      simp only [key, same]
      cases r.known? name with
      | none => rfl
      | some entry => exact resolved_redirect _ _

theorem start_redirect (same : ∀ name, (r.redirect names resolver).known? name = r.known? name)
    (operation : Operation) :
    (r.redirect names resolver).start operation =
      (r.start operation).redirect names resolver := by
  cases operation with
  | register request session once => exact register_redirect same request session once
  | cancel id => exact cancel_redirect id
  | cancelAll order => exact tearDown_redirect {} order
  | dispatch id payload isFinal => exact dispatch_redirect id payload isFinal

/-- No turn changes what the registry knows of names. -/
theorem start_kept (r : Registry) (operation : Operation) :
    r.start operation =
      (r.start operation).redirect r.config.ignoredDirectives r.resolver :=
  @start_redirect r r.config.ignoredDirectives r.resolver (fun _ => rfl) operation

theorem resume?_kept {waiting : Pending} {reply : Reply} {t : Turn}
    (turned : r.resume? waiting reply = some t) :
    t = t.redirect r.config.ignoredDirectives r.resolver := by
  have kept := @resume?_redirect r r.config.ignoredDirectives r.resolver waiting reply
  change r.resume? waiting reply = _ at kept
  rw [turned] at kept
  exact Option.some.inj kept

variable {d : Directory}

theorem ignoreByDirectory_eq (own : r.resolver = .directory d) :
    r.ignoreByDirectory =
      r.redirect [] (.directory (d.ignoring r.config.ignoredDirectives)) := by
  rw [ignoreByDirectory, own]

theorem known?_ignoreByDirectory (own : r.resolver = .directory d) (name : String) :
    r.ignoreByDirectory.known? name = r.known? name := by
  have entry := d.find?_ignoring r.config.ignoredDirectives name
  rw [ignoreByDirectory_eq own]
  simp only [known?, own, redirect, List.not_mem_nil, if_false, entry]
  split <;> rfl

@[simp] theorem ignoreByDirectory_listeners (r : Registry) :
    r.ignoreByDirectory.listeners = r.listeners := by
  unfold ignoreByDirectory
  split <;> rfl

theorem ignoreByDirectory_of_kept (own : r.resolver = .directory d) {t : Turn}
    (kept : t = t.redirect r.config.ignoredDirectives r.resolver) :
    t.redirect [] (.directory (d.ignoring r.config.ignoredDirectives)) =
      { t with registry := t.registry.ignoreByDirectory } := by
  have resolver : t.registry.resolver = r.resolver := congrArg (·.registry.resolver) kept
  have names : t.registry.config.ignoredDirectives = r.config.ignoredDirectives :=
    congrArg (·.registry.config.ignoredDirectives) kept
  rw [ignoreByDirectory_eq (resolver.trans own), names]
  rfl

theorem start_ignoreByDirectory (own : r.resolver = .directory d) (operation : Operation) :
    r.ignoreByDirectory.start operation =
      { r.start operation with
        registry := (r.start operation).registry.ignoreByDirectory } := by
  have same := known?_ignoreByDirectory own
  rw [ignoreByDirectory_eq own] at same ⊢
  rw [start_redirect same, ignoreByDirectory_of_kept own (start_kept r operation)]

theorem resume?_ignoreByDirectory (own : r.resolver = .directory d) (waiting : Pending)
    (reply : Reply) :
    r.ignoreByDirectory.resume? waiting reply =
      (r.resume? waiting reply).map fun t =>
        { t with registry := t.registry.ignoreByDirectory } := by
  rw [ignoreByDirectory_eq own, resume?_redirect]
  cases turned : r.resume? waiting reply with
  | none => rfl
  | some t => exact congrArg some (ignoreByDirectory_of_kept own (resume?_kept turned))

theorem editDirectory_ignoreByDirectory (own : r.resolver = .directory d)
    {change : Directory.Change}
    (spared : ∀ name ∈ change.names, name ∉ r.config.ignoredDirectives) :
    r.ignoreByDirectory.editDirectory change =
      (r.editDirectory change).ignoreByDirectory := by
  rw [ignoreByDirectory_eq own, editDirectory, editDirectory, own]
  simp only [redirect, ignoreByDirectory, Directory.apply_ignoring d spared]

end Registry

namespace Machine

def ignoreByDirectory (m : Machine) : Machine :=
  { m with registry := m.registry.ignoreByDirectory }

variable {m : Machine} {d : Directory}

theorem step_ignoreByDirectory (own : m.registry.resolver = .directory d) {move : Move}
    (spared : ∀ change, .edit change = move →
      ∀ name ∈ change.names, name ∉ m.registry.config.ignoredDirectives) :
    m.ignoreByDirectory.step move =
      (m.step move).map fun (n, seen) => (n.ignoreByDirectory, seen) := by
  cases move with
  | call operation =>
    have may : m.ignoreByDirectory.mayCall operation = m.mayCall operation := by
      cases operation <;> simp [mayCall, ignoreByDirectory]
    cases allowed : m.mayCall operation with
    | true =>
      have turned := m.registry.start_ignoreByDirectory own operation
      simp only [step, may, allowed, if_true]
      exact congrArg (fun t => some (finish m.pending (.called operation) t)) turned
    | false => simp only [step, may, allowed, Bool.false_eq_true, if_false, Option.map_none]
  | reply reply =>
    cases waits : m.pending with
    | nil => simp only [step, ignoreByDirectory, waits, Option.map_none]
    | cons waiting others =>
      simp only [step, ignoreByDirectory, waits, m.registry.resume?_ignoreByDirectory own]
      cases m.registry.resume? waiting reply <;> rfl
  | edit change =>
    have edited := m.registry.editDirectory_ignoreByDirectory own (spared change rfl)
    exact congrArg (fun r => some ({ m with registry := r }, [])) edited

theorem step_own {n : Machine} {move : Move} {seen : Trace}
    (own : m.registry.resolver = .directory d) (h : m.step move = some (n, seen)) :
    n.registry.config.ignoredDirectives = m.registry.config.ignoredDirectives ∧
      ∃ d', n.registry.resolver = .directory d' := by
  rcases step_eq_some h with ⟨change, rfl, -⟩ | ⟨cause, others, t, -, turned, rfl, -⟩
  · have changed : m.registry.editDirectory change =
        { m.registry with resolver := .directory (d.apply change) } := by
      rw [Registry.editDirectory, own]
    exact ⟨congrArg (·.config.ignoredDirectives) changed, _, congrArg (·.resolver) changed⟩
  · have kept : t = t.redirect m.registry.config.ignoredDirectives m.registry.resolver := by
      cases cause with
      | call operation =>
        cases turned
        exact m.registry.start_kept operation
      | reply waiting reply => exact Registry.resume?_kept turned
    have resolver : t.registry.resolver = m.registry.resolver :=
      congrArg (·.registry.resolver) kept
    exact ⟨congrArg (·.registry.config.ignoredDirectives) kept, d, resolver.trans own⟩

/-- Names that the configuration ignores might as well be ignored by entries of the directory: the
same histories are possible, the same passes in them, and they lead to the same listeners, ids and
counters. -/
theorem run_ignoreByDirectory {m : Machine} {d : Directory} {moves : List Move}
    (own : m.registry.resolver = .directory d)
    (spared : ∀ change, .edit change ∈ moves →
      ∀ name ∈ change.names, name ∉ m.registry.config.ignoredDirectives) :
    m.ignoreByDirectory.run moves =
      (m.run moves).map fun (n, trace) => (n.ignoreByDirectory, trace) := by
  induction moves generalizing m d with
  | nil => rfl
  | cons move moves ih =>
    have now : m.ignoreByDirectory.step move =
        (m.step move).map fun (n, seen) => (n.ignoreByDirectory, seen) :=
      step_ignoreByDirectory own fun change h => spared change (h ▸ List.mem_cons_self)
    simp only [run, now]
    cases h : m.step move with
    | none => rfl
    | some result =>
      obtain ⟨next, seen⟩ := result
      obtain ⟨names, d', own'⟩ := step_own own h
      have later := ih own' fun change hmem => names ▸ spared change (List.mem_cons_of_mem _ hmem)
      simp only [Option.map_some, later, Option.map_map]
      rfl

def muted : Machine :=
  { registry :=
      { config := { ignoredDirectives := ["tick"] }
        resolver := .directory (.ofList [("tick", .directive ⟨0⟩), ("tock", .directive ⟨1⟩)])
        ids := .sequential 7 } }

/-- The directive of `tock` asks for `tick` while it sets up, and then its name is forgotten. -/
def mutedRequests : List Move :=
  [.call (.register (.ofList [.symbol "tock"]) none false),
    .call (.register (.ofList [.symbol "tick", .nil, .procedure { handle := 1 }]) none true),
    .reply (.setUp (.ok true)),
    .edit (.remove "tock"),
    .call (.register (.ofList [.string "tick"]) none false),
    .call (.register (.ofList [.string "tick", .nil, .boolean true]) none false),
    .call (.register (.ofList [.string "tock"]) none false)]

theorem run_ignoreByDirectory_muted :
    muted.registry.resolver =
        .directory (.ofList [("tick", .directive ⟨0⟩), ("tock", .directive ⟨1⟩)]) ∧
      (∀ change, .edit change ∈ mutedRequests →
        ∀ name ∈ change.names, name ∉ muted.registry.config.ignoredDirectives) ∧
      ∃ (n : Machine) (trace : Trace),
        muted.ignoreByDirectory.run mutedRequests = some (n.ignoreByDirectory, trace) ∧
        trace.log = [.registered 7 "tock" false, .ignored "tick", .ignored "tick"] := by
  have spared : ∀ change, .edit change ∈ mutedRequests →
      ∀ name ∈ change.names, name ∉ muted.registry.config.ignoredDirectives := by
    intro change hmem name hname
    simp only [mutedRequests, List.mem_cons, Move.edit.injEq, reduceCtorEq, false_or, or_false,
      List.not_mem_nil] at hmem
    subst hmem
    cases List.mem_singleton.1 hname
    decide
  refine ⟨rfl, spared, ?_⟩
  obtain ⟨n, trace, history, hlog⟩ : ∃ (n : Machine) (trace : Trace),
      muted.run mutedRequests = some (n, trace) ∧
      trace.log = [.registered 7 "tock" false, .ignored "tick", .ignored "tick"] :=
    ⟨_, _, rfl, rfl⟩
  refine ⟨n, trace, ?_, hlog⟩
  rw [run_ignoreByDirectory rfl spared, history]
  rfl

end Machine

end ScriptEvents
