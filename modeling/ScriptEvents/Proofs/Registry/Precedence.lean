import ScriptEvents.Proofs.Machine.Trace
import ScriptEvents.Proofs.Registry.Ignoring
/-!
Precedence: what a registration comes to before its listener has an id. The request is judged part
by part and the first thing wrong with it decides; only then is its name looked up, and only for a
directive is there an id.
-/
namespace ScriptEvents

namespace Value

theorem ofList_inj {vs ws : List Value} : ofList vs = ofList ws ↔ vs = ws := by
  refine ⟨fun h => ?_, congrArg ofList⟩
  rw [← items_ofList vs, h, items_ofList]

def Spells (v : Value) (name : String) : Prop := v = .string name ∨ v = .symbol name

theorem key?_eq_some_iff {v : Value} {name : String} : v.key? = some name ↔ v.Spells name := by
  cases v <;> simp [key?, Spells]

theorem key?_eq_none_iff {v : Value} : v.key? = none ↔ ∀ name, ¬ v.Spells name := by
  simp only [Option.eq_none_iff_forall_ne_some, ne_eq, key?_eq_some_iff]

theorem Spells.eq {v : Value} {name other : String} (h : v.Spells name) (h' : v.Spells other) :
    name = other := by
  rw [← key?_eq_some_iff] at h h'
  exact Option.some.inj (h.symm.trans h')

end Value

abbrev Answers := Value → Except ResolveError (Option DirectiveEntry)

def Effect.isSettingUp : Effect → Bool
  | asked (.invoke ..) | asked (.allocate _) | received (.id ..) => true
  | _ => false

namespace ListenRequest

inductive Uncallable : List Value → String → Prop where
  | intro {name options third : Value} {more : List Value} (there : third ≠ .nil)
      (other : ∀ p, third ≠ .procedure p) :
      Uncallable (name :: options :: third :: more) third.typeName

def Callable (vs : List Value) : Prop := ∀ got, ¬ Uncallable vs got

theorem Uncallable.eq {vs : List Value} {got other : String} (h : Uncallable vs got)
    (h' : Uncallable vs other) : got = other := by
  cases h
  cases h'
  rfl

inductive Reads (request : Value) : Except ListenerError ListenRequest → Prop where
  | malformed (reason : String) (h : ∀ first rest, request ≠ .ofList (first :: rest)) :
      Reads request (.error (.invalidRequest reason))
  | uncallable {first : Value} {rest : List Value} {got : String}
      (list : request = .ofList (first :: rest)) (bad : Uncallable (first :: rest) got) :
      Reads request (.error (.invalidCallback got))
  | parts {first : Value} {rest : List Value} (list : request = .ofList (first :: rest))
      (callable : Callable (first :: rest)) :
      Reads request (.ok { name := first, options := rest[0]?.getD .nil
                           callback := rest[1]?.bind Value.procedure? })

theorem ofValue_reads (request : Value) : Reads request (ofValue request) := by
  cases proper : request.isList with
  | false =>
    have improper : ofValue request = .error (.invalidRequest _) :=
      if_pos (by rw [proper]; rfl)
    rw [improper]
    refine .malformed _ fun first rest h => ?_
    rw [h, Value.isList_ofList] at proper
    cases proper
  | true =>
    obtain ⟨vs, rfl⟩ : ∃ vs, request = .ofList vs := ⟨_, (Value.ofList_items proper).symm⟩
    simp only [ofValue, Value.isList_ofList, Value.items_ofList, Bool.not_true, Bool.false_eq_true,
      if_false]
    split
    · exact .malformed _ fun first rest h => nomatch Value.ofList_inj.1 h
    · exact .parts rfl nofun
    · exact .parts rfl nofun
    · refine .parts rfl ?_
      rintro _ ⟨there, -⟩
      exact there rfl
    · refine .parts rfl ?_
      rintro _ ⟨-, other⟩
      exact other _ rfl
    next there other => exact .uncallable rfl (.intro there other)

end ListenRequest

inductive Verdict where
  | refused (e : ListenerError)
  | ignored (name : String)
  | accepted (p : Proposal) (target : Directive)

namespace Verdict

def ofAnswer (p : Proposal) : Except ResolveError (Option DirectiveEntry) → Verdict
  | .error e => refused (.resolve e)
  | .ok none => refused (.unknownDirective p.name)
  | .ok (some .ignore) => ignored p.name
  | .ok (some (.notCallable _)) => refused (.invalidDirective p.name)
  | .ok (some (.directive target)) => accepted p target

theorem ofAnswer_eq_refused {p : Proposal} {answer : Except ResolveError (Option DirectiveEntry)}
    {e : ListenerError} (h : ofAnswer p answer = refused e) :
    (∃ cause, e = .resolve cause) ∨ e = .unknownDirective p.name ∨
      e = .invalidDirective p.name := by
  match answer with
  | .error cause => cases h; exact .inl ⟨cause, rfl⟩
  | .ok none => cases h; exact .inr (.inl rfl)
  | .ok (some (.notCallable _)) => cases h; exact .inr (.inr rfl)
  | .ok (some .ignore) | .ok (some (.directive _)) => cases h

theorem ofAnswer_eq_accepted {p q : Proposal} {target : Directive}
    {answer : Except ResolveError (Option DirectiveEntry)} :
    ofAnswer p answer = accepted q target ↔ answer = .ok (some (.directive target)) ∧ q = p := by
  match answer with
  | .error _ | .ok none | .ok (some .ignore) | .ok (some (.notCallable _)) => simp [ofAnswer]
  | .ok (some (.directive other)) => simp [ofAnswer, eq_comm, and_comm]

inductive LeadsTo (m : Machine) : Verdict → Machine → Trace → Prop where
  | refused (e : ListenerError) : LeadsTo m (refused e) m [.returned (.registered (.error e))]
  | ignored (name : String) :
      LeadsTo m (ignored name)
        { m with registry.stats.ignored := m.registry.stats.ignored + 1 }
        [.published (.ignored name), .returned (.registered (.ok (.ignored name)))]
  | given {p : Proposal} {target : Directive} {id : ListenerId} {ids : IdSource} (n : Machine)
      (later : Trace) (next : m.registry.ids.next? p.session = some (id, ids))
      (advanced : n.registry.ids = ids) :
      LeadsTo m (accepted p target) n (.received (.id p.session id) :: later)
  | requested {p : Proposal} {target : Directive} (next : m.registry.ids.next? p.session = none) :
      LeadsTo m (accepted p target) { m with pending := .allocating p target :: m.pending }
        [.asked (.allocate p.context)]

theorem LeadsTo.untouched {m n : Machine} {passed : Trace} {verdict : Verdict}
    (leads : verdict.LeadsTo m n passed) (idle : ∀ p target, verdict ≠ accepted p target) :
    n.registry = { m.registry with stats := n.registry.stats } ∧ n.pending = m.pending ∧
      ∀ e ∈ passed, e.isSettingUp = false := by
  cases leads with
  | refused | ignored => exact ⟨rfl, rfl, by simp [Effect.isSettingUp]⟩
  | given | requested => exact absurd rfl (idle _ _)

end Verdict

namespace Registry

/-- The answer for a name, from the registry's own directory or from the resolver outside. -/
def answer (r : Registry) (outside : Answers) (name : Value) :
    Except ResolveError (Option DirectiveEntry) :=
  match r.resolver with
  | .directory d => d.resolve name
  | .external => outside name

def consultation (r : Registry) (outside : Answers) (name : Value) : Trace :=
  match r.resolver with
  | .directory _ => []
  | .external => [.asked (.resolve name), .replied (.resolved (outside name))]

theorem consultation_quiet (r : Registry) (outside : Answers) (name : Value) :
    Trace.log (r.consultation outside name) = [] ∧
      ∀ e ∈ r.consultation outside name, e.isSettingUp = false := by
  unfold consultation
  split
  · exact ⟨rfl, List.forall_mem_nil _⟩
  · exact ⟨rfl, by simp [Effect.isSettingUp]⟩

theorem store_ids (r : Registry) (p : Proposal) (target : Directive) (id : ListenerId) :
    (r.store p target id).registry.ids = r.ids := by
  unfold store
  split
  · rfl
  · split <;> rfl

theorem store_settled (r : Registry) (p : Proposal) (target : Directive) (id : ListenerId)
    (name : Value) (waiting : Pending) :
    (r.store p target id).signal ≠ .ask (.resolve name) waiting := by
  unfold store
  split
  · nofun
  · split <;> nofun

theorem resolved_settled (r : Registry) (p : Proposal)
    (answer : Except ResolveError (Option DirectiveEntry)) (name : Value) (waiting : Pending) :
    (r.resolved p answer).signal ≠ .ask (.resolve name) waiting := by
  match answer with
  | .error _ | .ok none | .ok (some .ignore) | .ok (some (.notCallable _)) => nofun
  | .ok (some (.directive target)) =>
    unfold resolved
    dsimp only
    split
    · exact store_settled _ p target _ name waiting
    · nofun

theorem resolved_leadsTo (r : Registry) (others : List Pending) (p : Proposal)
    (answer : Except ResolveError (Option DirectiveEntry)) :
    (Verdict.ofAnswer p answer).LeadsTo { registry := r, pending := others }
      { registry := (r.resolved p answer).registry
        pending := (r.resolved p answer).signal.pending ++ others }
      (r.resolved p answer).effects := by
  match answer with
  | .error _ | .ok none | .ok (some (.notCallable _)) => exact .refused _
  | .ok (some .ignore) => exact .ignored p.name
  | .ok (some (.directive target)) =>
    cases next : r.ids.next? p.session with
    | none =>
      have asks : r.resolved p (.ok (some (.directive target))) =
          r.publish [] (.ask (.allocate p.context) (.allocating p target)) := by
        simp only [resolved, next]
      rw [asks]
      exact .requested next
    | some assigned =>
      have enrolls : r.resolved p (.ok (some (.directive target))) =
          { r with ids := assigned.2 }.enroll p target assigned.1 := by
        simp only [resolved, next]
      rw [enrolls]
      exact .given _ _ next (store_ids _ p target assigned.1)

inductive Judges (r : Registry) (outside : Answers) (request : Value) (session : Option Session)
    (once : Bool) : Trace → Verdict → Prop where
  | malformed (reason : String) (h : ∀ first rest, request ≠ .ofList (first :: rest)) :
      Judges r outside request session once [] (.refused (.invalidRequest reason))
  | uncallable {first : Value} {rest : List Value} {got : String}
      (list : request = .ofList (first :: rest))
      (bad : ListenRequest.Uncallable (first :: rest) got) :
      Judges r outside request session once [] (.refused (.invalidCallback got))
  | unnamed {first : Value} {rest : List Value} (list : request = .ofList (first :: rest))
      (callable : ListenRequest.Callable (first :: rest))
      (nameless : ∀ name, ¬ first.Spells name) :
      Judges r outside request session once [] (.refused (.resolve (.invalidName first.typeName)))
  | muted {first : Value} {rest : List Value} {name : String}
      (list : request = .ofList (first :: rest))
      (callable : ListenRequest.Callable (first :: rest))
      (named : first.Spells name) (listed : name ∈ r.config.ignoredDirectives) :
      Judges r outside request session once [] (.ignored name)
  | answered {first : Value} {rest : List Value} {name : String}
      (list : request = .ofList (first :: rest))
      (callable : ListenRequest.Callable (first :: rest))
      (named : first.Spells name) (unlisted : name ∉ r.config.ignoredDirectives) :
      Judges r outside request session once (r.consultation outside first)
        (.ofAnswer
          { name, options := rest[0]?.getD .nil, callback := rest[1]?.bind Value.procedure?,
            once, request, session }
          (r.answer outside first))

variable {r : Registry} {outside : Answers} {request : Value} {session : Option Session}
  {once : Bool} {consulted : Trace} {verdict : Verdict} {first : Value} {rest : List Value}
  {name got : String}

namespace Judges

theorem invalidRequest_iff (judges : r.Judges outside request session once consulted verdict) :
    (∃ reason, verdict = .refused (.invalidRequest reason)) ↔
      ∀ first rest, request ≠ .ofList (first :: rest) := by
  cases judges with
  | malformed reason h => exact iff_of_true ⟨reason, rfl⟩ h
  | uncallable list | unnamed list | muted list =>
    exact iff_of_false nofun fun h => h _ _ list
  | answered list =>
    refine iff_of_false ?_ fun h => h _ _ list
    rintro ⟨reason, h⟩
    obtain ⟨_, h⟩ | h | h := Verdict.ofAnswer_eq_refused h <;> cases h

theorem invalidCallback_iff
    (judges : r.Judges outside (.ofList (first :: rest)) session once consulted verdict) :
    verdict = .refused (.invalidCallback got) ↔ ListenRequest.Uncallable (first :: rest) got := by
  cases judges with
  | malformed reason h => exact absurd rfl (h first rest)
  | uncallable list bad =>
    cases Value.ofList_inj.1 list
    constructor
    · rintro ⟨⟩
      exact bad
    · intro h
      rw [h.eq bad]
  | unnamed list callable | muted list callable =>
    cases Value.ofList_inj.1 list
    exact iff_of_false nofun (callable got)
  | answered list callable =>
    cases Value.ofList_inj.1 list
    refine iff_of_false (fun h => ?_) (callable got)
    obtain ⟨_, h⟩ | h | h := Verdict.ofAnswer_eq_refused h <;> cases h

theorem answer_ne_error (own : r.consultation outside first = []) (named : first.Spells name)
    (e : ResolveError) : r.answer outside first ≠ .error e := by
  rw [← Value.key?_eq_some_iff] at named
  unfold consultation at own
  unfold answer
  split at own
  · simp [Directory.resolve, named]
  · cases own

theorem of_callable
    (judges : r.Judges outside (.ofList (first :: rest)) session once consulted verdict)
    (callable : ListenRequest.Callable (first :: rest)) :
    ((∀ name, ¬ first.Spells name) ∧
      verdict = .refused (.resolve (.invalidName first.typeName)) ∧ consulted = []) ∨
    ∃ name, first.Spells name ∧
      (name ∈ r.config.ignoredDirectives ∧ verdict = .ignored name ∧ consulted = [] ∨
        name ∉ r.config.ignoredDirectives ∧
          verdict = .ofAnswer
            { name, options := rest[0]?.getD .nil, callback := rest[1]?.bind Value.procedure?, once,
              request := .ofList (first :: rest), session } (r.answer outside first) ∧
          consulted = r.consultation outside first) := by
  cases judges with
  | malformed reason h => exact absurd rfl (h first rest)
  | uncallable list bad =>
    cases Value.ofList_inj.1 list
    exact absurd bad (callable _)
  | unnamed list _ nameless =>
    cases Value.ofList_inj.1 list
    exact .inl ⟨nameless, rfl, rfl⟩
  | muted list _ named listed =>
    cases Value.ofList_inj.1 list
    exact .inr ⟨_, named, .inl ⟨listed, rfl, rfl⟩⟩
  | answered list _ named unlisted =>
    cases Value.ofList_inj.1 list
    exact .inr ⟨_, named, .inr ⟨unlisted, rfl, rfl⟩⟩

theorem invalidName_iff
    (judges : r.Judges outside (.ofList (first :: rest)) session once consulted verdict)
    (callable : ListenRequest.Callable (first :: rest)) :
    verdict = .refused (.resolve (.invalidName got)) ∧ consulted = [] ↔
      (∀ name, ¬ first.Spells name) ∧ got = first.typeName := by
  rcases judges.of_callable callable with
    ⟨nameless, rfl, rfl⟩ | ⟨name, named, ⟨-, rfl, -⟩ | ⟨-, rfl, rfl⟩⟩
  · simp [nameless, eq_comm]
  · exact iff_of_false nofun fun h => h.1 name named
  · refine iff_of_false ?_ fun h => h.1 name named
    rintro ⟨h, own⟩
    have noError := answer_ne_error own named
    match hanswer : r.answer outside first with
    | .error e => exact noError e hanswer
    | .ok none | .ok (some .ignore) | .ok (some (.notCallable _)) | .ok (some (.directive _)) =>
      rw [hanswer] at h
      cases h

theorem of_listed
    (judges : r.Judges outside (.ofList (first :: rest)) session once consulted verdict)
    (callable : ListenRequest.Callable (first :: rest)) (named : first.Spells name)
    (listed : name ∈ r.config.ignoredDirectives) : verdict = .ignored name ∧ consulted = [] := by
  rcases judges.of_callable callable with
    ⟨nameless, -⟩ | ⟨other, named', ⟨-, ignored⟩ | ⟨unlisted, -⟩⟩
  · exact absurd named (nameless name)
  · exact named.eq named' ▸ ignored
  · exact absurd (named.eq named' ▸ listed) unlisted

theorem of_unlisted
    (judges : r.Judges outside (.ofList (first :: rest)) session once consulted verdict)
    (callable : ListenRequest.Callable (first :: rest)) (named : first.Spells name)
    (unlisted : name ∉ r.config.ignoredDirectives) :
    verdict = .ofAnswer
        { name, options := rest[0]?.getD .nil, callback := rest[1]?.bind Value.procedure?, once,
          request := .ofList (first :: rest), session } (r.answer outside first) ∧
      consulted = r.consultation outside first := by
  rcases judges.of_callable callable with
    ⟨nameless, -⟩ | ⟨other, named', ⟨listed, -⟩ | ⟨-, answered⟩⟩
  · exact absurd named (nameless name)
  · exact absurd listed (named.eq named' ▸ unlisted)
  · cases named.eq named'
    exact answered

/-- There is to be an id just if nothing is wrong with the request and its name stands for a
directive. -/
theorem accepted_iff (judges : r.Judges outside request session once consulted verdict)
    {target : Directive} :
    (∃ p, verdict = .accepted p target) ↔ ∃ first rest name, request = .ofList (first :: rest) ∧
      ListenRequest.Callable (first :: rest) ∧ first.Spells name ∧
      name ∉ r.config.ignoredDirectives ∧
      r.answer outside first = .ok (some (.directive target)) := by
  constructor
  · rintro ⟨p, rfl⟩
    generalize accepted : Verdict.accepted p target = verdict at judges
    cases judges with
    | malformed | uncallable | unnamed | muted => cases accepted
    | answered list callable named unlisted =>
      exact ⟨_, _, _, list, callable, named, unlisted,
        (Verdict.ofAnswer_eq_accepted.1 accepted.symm).1⟩
  · rintro ⟨first, rest, name, rfl, callable, named, unlisted, hanswer⟩
    exact ⟨_, (judges.of_unlisted callable named unlisted).1.trans
      (Verdict.ofAnswer_eq_accepted.2 ⟨hanswer, rfl⟩)⟩

theorem consulted_quiet (judges : r.Judges outside request session once consulted verdict) :
    Trace.log consulted = [] ∧ ∀ e ∈ consulted, e.isSettingUp = false := by
  cases judges with
  | answered => exact consultation_quiet r outside _
  | _ => exact ⟨rfl, List.forall_mem_nil _⟩

end Judges

end Registry

namespace Machine

/-- The moves of a registration up to the first at which something else than a name is asked for.
The resolver outside replies at once. -/
def opening (m : Machine) (outside : Answers) (request : Value) (session : Option Session)
    (once : Bool) : List Move :=
  .call (.register request session once) ::
    match (m.registry.register request session once).signal with
    | .ask (.resolve name) _ => [.reply (.resolved (outside name))]
    | _ => []

variable {m : Machine} {outside : Answers} {request : Value} {session : Option Session}
  {once : Bool}

theorem run_opening_of_settled {t : Turn}
    (turned : m.registry.register request session once = t)
    (settled : ∀ name waiting, t.signal ≠ .ask (.resolve name) waiting) :
    m.run (m.opening outside request session once) =
      some (finish m.pending (.called (.register request session once)) t) := by
  have alone : m.opening outside request session once =
      [.call (.register request session once)] := by
    unfold opening
    rw [turned]
    split
    next name waiting h => exact absurd h (settled name waiting)
    next => rfl
  rw [alone]
  simp only [run, step, mayCall, Registry.start, turned, if_true, Option.map_some, List.append_nil]

theorem run_opening_of_consulted {p : Proposal} {name : Value}
    (turned : m.registry.register request session once =
      m.registry.publish [] (.ask (.resolve name) (.resolving p))) :
    m.run (m.opening outside request session once) =
      some ((finish m.pending (.replied (.resolved (outside name)))
          (m.registry.resolved p (outside name))).1,
        .called (.register request session once) :: .asked (.resolve name) ::
          .replied (.resolved (outside name)) ::
            (m.registry.resolved p (outside name)).effects) := by
  have both : m.opening outside request session once =
      [.call (.register request session once), .reply (.resolved (outside name))] := by
    unfold opening
    rw [turned]
    rfl
  rw [both]
  simp only [run, step, mayCall, Registry.start, turned, if_true, Option.map_some, List.append_nil]
  rfl

theorem opening_judges (m : Machine) (outside : Answers) (request : Value)
    (session : Option Session) (once : Bool) :
    ∃ (n : Machine) (consulted passed : Trace) (verdict : Verdict),
      m.run (m.opening outside request session once) =
        some (n, .called (.register request session once) :: (consulted ++ passed)) ∧
      verdict.LeadsTo m n passed ∧
      m.registry.Judges outside request session once consulted verdict := by
  have registers := m.registry.register_eq request session once
  have reads := ListenRequest.ofValue_reads request
  generalize ListenRequest.ofValue request = result at registers reads
  have refused {e : ListenerError}
      (turned : m.registry.register request session once = m.registry.refuse e) :
      m.run (m.opening outside request session once) =
        some (m,
          [.called (.register request session once), .returned (.registered (.error e))]) := by
    refine run_opening_of_settled turned fun name waiting h => ?_
    cases h
  cases reads with
  | malformed reason h =>
    exact ⟨m, [], _, _, refused registers, .refused _, .malformed reason h⟩
  | uncallable list bad =>
    exact ⟨m, [], _, _, refused registers, .refused _, .uncallable list bad⟩
  | @parts first rest list callable =>
    cases named : first.key? with
    | none =>
      simp only [named] at registers
      exact ⟨m, [], _, _, refused registers, .refused _,
        .unnamed list callable (Value.key?_eq_none_iff.1 named)⟩
    | some name =>
      have spells := Value.key?_eq_some_iff.1 named
      simp only [named, Registry.known?] at registers
      by_cases listed : name ∈ m.registry.config.ignoredDirectives
      · simp only [if_pos listed] at registers
        refine ⟨_, [], _, _, run_opening_of_settled registers fun name waiting h => ?_,
          .ignored name, .muted list callable spells listed⟩
        cases h
      · simp only [if_neg listed] at registers
        -- From here on it takes one turn or two, by who knows the directives.
        have judges : m.registry.Judges outside request session once
            (m.registry.consultation outside first) _ :=
          .answered list callable spells listed
        cases resolver : m.registry.resolver with
        | directory d =>
          simp only [resolver] at registers
          simp only [Registry.consultation, Registry.answer, resolver, Directory.resolve,
            named] at judges
          exact ⟨_, [], _, _,
            run_opening_of_settled registers (m.registry.resolved_settled _ _),
            m.registry.resolved_leadsTo m.pending _ _, judges⟩
        | external =>
          simp only [resolver] at registers
          simp only [Registry.consultation, Registry.answer, resolver] at judges
          exact ⟨_, [.asked (.resolve first), .replied (.resolved (outside first))], _, _,
            run_opening_of_consulted registers, m.registry.resolved_leadsTo m.pending _ _, judges⟩

/-- How a registration is decided. In its place in the order, each condition decides. -/
structure DecidesInOrder (m : Machine) (outside : Answers) (request : Value)
    (session : Option Session) (once : Bool) (n : Machine) (consulted passed : Trace)
    (verdict : Verdict) : Prop where
  invalidRequest : (∃ reason, verdict = .refused (.invalidRequest reason)) ↔
    ∀ first rest, request ≠ .ofList (first :: rest)
  invalidCallback (first : Value) (rest : List Value) : request = .ofList (first :: rest) →
    ∀ got, verdict = .refused (.invalidCallback got) ↔
      ListenRequest.Uncallable (first :: rest) got
  invalidName (first : Value) (rest : List Value) : request = .ofList (first :: rest) →
    ListenRequest.Callable (first :: rest) →
    ∀ got, verdict = .refused (.resolve (.invalidName got)) ∧ consulted = [] ↔
      (∀ name, ¬ first.Spells name) ∧ got = first.typeName
  listed (first : Value) (rest : List Value) (name : String) : request = .ofList (first :: rest) →
    ListenRequest.Callable (first :: rest) → first.Spells name →
    name ∈ m.registry.config.ignoredDirectives → verdict = .ignored name ∧ consulted = []
  unlisted (first : Value) (rest : List Value) (name : String) :
    request = .ofList (first :: rest) →
    ListenRequest.Callable (first :: rest) → first.Spells name →
    name ∉ m.registry.config.ignoredDirectives →
    verdict = .ofAnswer
        { name, options := rest[0]?.getD .nil, callback := rest[1]?.bind Value.procedure?, once,
          request, session } (m.registry.answer outside first) ∧
      consulted = m.registry.consultation outside first
  accepted (target : Directive) : (∃ p, verdict = .accepted p target) ↔
    ∃ first rest name, request = .ofList (first :: rest) ∧
      ListenRequest.Callable (first :: rest) ∧ first.Spells name ∧
      name ∉ m.registry.config.ignoredDirectives ∧
      m.registry.answer outside first = .ok (some (.directive target))
  leads : verdict.LeadsTo m n passed
  untouched : (∀ p target, verdict ≠ .accepted p target) →
    n.registry = { m.registry with stats := n.registry.stats } ∧ n.pending = m.pending ∧
    ∀ e ∈ consulted ++ passed, e.isSettingUp = false
  refused (e : ListenerError) : verdict = .refused e → n = m ∧ Trace.log (consulted ++ passed) = []
  ignored (name : String) : verdict = .ignored name →
    n = { m with registry.stats.ignored := m.registry.stats.ignored + 1 } ∧
    Trace.log (consulted ++ passed) = [.ignored name]

theorem register_decides_in_order (m : Machine) (outside : Answers) (request : Value)
    (session : Option Session) (once : Bool) :
    ∃ (n : Machine) (consulted passed : Trace) (verdict : Verdict),
      m.run (m.opening outside request session once) =
        some (n, .called (.register request session once) :: (consulted ++ passed)) ∧
      m.DecidesInOrder outside request session once n consulted passed verdict := by
  obtain ⟨n, consulted, passed, verdict, ran, leads, judges⟩ :=
    m.opening_judges outside request session once
  refine ⟨n, consulted, passed, verdict, ran, ?_⟩
  obtain ⟨unpublished, quiet⟩ := judges.consulted_quiet
  constructor
  case invalidRequest => exact judges.invalidRequest_iff
  case invalidCallback =>
    rintro first rest rfl got
    exact judges.invalidCallback_iff
  case invalidName =>
    rintro first rest rfl callable got
    exact judges.invalidName_iff callable
  case listed =>
    rintro first rest name rfl callable named listed
    exact judges.of_listed callable named listed
  case unlisted =>
    rintro first rest name rfl callable named unlisted
    exact judges.of_unlisted callable named unlisted
  case accepted => exact fun target => judges.accepted_iff
  case leads => exact leads
  case untouched =>
    intro idle
    obtain ⟨registry, pending, hpassed⟩ := leads.untouched idle
    exact ⟨registry, pending, List.forall_mem_append.2 ⟨quiet, hpassed⟩⟩
  case refused =>
    rintro e rfl
    cases leads
    rw [Trace.log_append, unpublished]
    exact ⟨rfl, rfl⟩
  case ignored =>
    rintro name rfl
    cases leads
    rw [Trace.log_append, unpublished]
    exact ⟨rfl, rfl⟩

end Machine

end ScriptEvents
