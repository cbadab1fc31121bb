import ScriptEvents.Proofs.Procedures.Call
import ScriptEvents.Proofs.Registry.Precedence
import ScriptEvents.Proofs.Registry.Provenance
/-!
Registering procedures: a call whose arguments are a proper list of one to three elements is the
registration of that list, and any other call is refused before the registry learns of it.
-/
namespace ScriptEvents

namespace Value

def pairs : Value → Nat
  | pair _ cdr => cdr.pairs + 1
  | _ => 0

theorem length_items (v : Value) : v.items.length = v.pairs := by
  induction v with
  | pair car cdr _ ih => rw [items_pair, List.length_cons, ih, pairs]
  | _ => rfl

end Value

theorem ListenRequest.ofValue_ne_invalidRequest {first : Value} {rest : List Value}
    (reason : String) :
    ofValue (.ofList (first :: rest)) ≠ .error (.invalidRequest reason) := by
  intro h
  have reads := ofValue_reads (.ofList (first :: rest))
  rw [h] at reads
  cases reads with
  | malformed _ unlike => exact unlike first rest rfl

namespace Registry

variable {r : Registry} {cause : Cause} {t : Turn} {request : Value} {session : Option Session}
  {once : Bool} {outcome : Outcome}

def Registers (request : Value) (outcome : Outcome) : Prop :=
  ∃ result, outcome = .registered result ∧ ∀ reason, result = .error (.invalidRequest reason) →
    ListenRequest.ofValue request = .error (.invalidRequest reason)

theorem Finishes.registers (ends : r.Finishes cause outcome)
    (serves : cause.Serves (.register request session once)) : Registers request outcome := by
  cases ends with
  | malformed h =>
    cases serves
    refine ⟨_, rfl, fun reason hreason => ?_⟩
    cases hreason
    exact h
  | unnamed | unresolved | unknown | uncallable | setUp | stoppedLate | rejectedLate | rejected =>
    exact ⟨_, rfl, nofun⟩
  | cancelledNone | deliveredNone => cases serves
  | cancelled | delivered | recovered | unrecovered | handled =>
    simp [Cause.Serves, Pending.Serves] at serves

theorem Course.registers (course : Course r cause t)
    (serves : cause.Serves (.register request session once)) (ends : t.signal = .done outcome) :
    Registers request outcome := by
  cases course with
  | finish _ finishes =>
    cases ends
    exact finishes.registers serves
  | ignore | refuse | supply =>
    cases ends
    exact ⟨_, rfl, nofun⟩
  | resolve | allocate | store | supplyLate => cases ends
  | @reject s l e found =>
    rcases stop_cases l (.rejecting s.name e) (.done (.registered (.error (.directive s.name e))))
      with ⟨_, -, hstop⟩ | ⟨-, hstop⟩
    · cases hstop.symm.trans ends
    · cases hstop.symm.trans ends
      exact ⟨_, rfl, nofun⟩
  | tearDown report left reached =>
    obtain ⟨_, h⟩ := reached.of_serves serves
    cases h
  | cancel | handOver | deliver | fire => cases serves
  | callBack | fail => simp [Cause.Serves, Pending.Serves] at serves

end Registry

namespace Contract

def registering : Contract where
  Waits _ operation _ waiting := waiting.Serves operation
  Ends _ operation _ outcome := ∀ request session once,
    operation = .register request session once → Registry.Registers request outcome

theorem registering_meets {r : Registry} {cause : Cause} {t : Turn} {before passed : Trace}
    {operation : Operation} (course : r.Course cause t) (serves : cause.Serves operation) :
    registering.Meets before operation passed t.signal := by
  cases hsignal : t.signal with
  | ask request waiting =>
    exact course.serves serves waiting (by rw [hsignal]; exact List.mem_cons_self)
  | done outcome =>
    rintro request session once rfl
    exact course.registers serves hsignal

theorem registering_kept (start : Machine) : registering.Kept start where
  calls _ _ course := registering_meets course rfl
  replies _ _ _ waits course := registering_meets course waits
  nests _ _ waits _ := waits

end Contract

namespace Machine

theorem IsNew.registered_of_performs {start m n : Machine} {earlier moves : List Move}
    {before trace : Trace} {first : Value} {rest : List Value} {session : Option Session}
    {once : Bool} {outcome : Outcome} (new : start.IsNew)
    (history : start.run earlier = some (m, before))
    (performs : m.Performs (.register (.ofList (first :: rest)) session once) moves n trace
      outcome) :
    ∃ result, outcome = .registered result ∧
      ∀ reason, result ≠ .error (.invalidRequest reason) := by
  obtain ⟨_, -, -, ends⟩ := new.ends_of_performs (Contract.registering_kept start) history performs
  obtain ⟨result, rfl, malformed⟩ := ends _ _ _ rfl
  exact ⟨result, rfl, fun reason h =>
    ListenRequest.ofValue_ne_invalidRequest reason (malformed reason h)⟩

end Machine

namespace NativeProcedure

inductive Registers : NativeProcedure → Bool → Prop where
  | on : Registers on false
  | once : Registers once true
  | exec : Registers exec true

/-- What a procedure returns for what became of a registration: the id in decimal, or the error as
that of the registry. -/
def spelled : Except ListenerError Registration → Except BindingError Value
  | .ok registration => .ok (.symbol (Text.integer registration.id.toInt))
  | .error e => .error (.listener e)

variable {p : NativeProcedure} {once : Bool} {arguments : Value} {session : Option Session}
  {vs : List Value}

theorem valueOf?_registered (result : Except ListenerError Registration) :
    valueOf? (.registered result) = some (spelled result) := by
  cases result <;> rfl

def IsRequest (arguments : Value) : Prop :=
  ∃ vs, arguments = .ofList vs ∧ 1 ≤ vs.length ∧ vs.length ≤ 3

theorem operation_of_isRequest (registers : p.Registers once) (fits : IsRequest arguments)
    (session : Option Session) :
    p.operation arguments session = .ok (.register arguments session once) := by
  obtain ⟨vs, rfl, least, most⟩ := fits
  have accepted (q : NativeProcedure) (once : Bool) :
      q.registration (.ofList vs) session once = .ok (.register (.ofList vs) session once) := by
    simp [registration, Value.isList_ofList, Value.items_ofList, least, most]
  cases registers <;> exact accepted _ _

theorem operation_of_not_isRequest (registers : p.Registers once) (unfit : ¬ IsRequest arguments)
    (session : Option Session) :
    p.operation arguments session = .error (.arity p.name "1 to 3" arguments.pairs) := by
  have refused (q : NativeProcedure) (once : Bool) : q.registration arguments session once =
      .error (.arity q.name "1 to 3" arguments.pairs) := by
    unfold registration
    rw [if_neg, Value.length_items]
    simp only [Bool.and_eq_true, decide_eq_true_eq, not_and]
    rintro ⟨proper, least⟩ most
    exact unfit ⟨arguments.items, (Value.ofList_items proper).symm, least, most⟩
  cases registers <;> exact refused _ _

/-- Calls of a registering procedure on a machine, with these arguments. -/
structure Refines (p : NativeProcedure) (once : Bool) (m : Machine) (arguments : Value)
    (session : Option Session) : Prop where
  starts : IsRequest arguments →
    p.operation arguments session = .ok (.register arguments session once)
  acts : IsRequest arguments →
    ∀ (moves : List Move) (n : Machine) (trace : Trace) (value : Except BindingError Value),
      p.Call arguments session m moves n trace value ↔
        ∃ result, m.Performs (.register arguments session once) moves n trace (.registered result) ∧
          value = spelled result ∧ ∀ reason, result ≠ .error (.invalidRequest reason)
  refuses : ¬ IsRequest arguments →
    ∀ (moves : List Move) (n : Machine) (trace : Trace) (value : Except BindingError Value),
      p.Call arguments session m moves n trace value ↔
        moves = [] ∧ n = m ∧ trace = [] ∧ value = .error (.arity p.name "1 to 3" arguments.pairs)

theorem registering_refines_registration {start m : Machine} {earlier : List Move} {before : Trace}
    (new : start.IsNew) (history : start.run earlier = some (m, before))
    (registers : p.Registers once) (arguments : Value) (session : Option Session) :
    p.Refines once m arguments session := by
  constructor
  case starts => exact fun fits => operation_of_isRequest registers fits session
  case acts =>
    intro fits moves n trace value
    rw [call_iff_of_ok (operation_of_isRequest registers fits session)]
    constructor
    · rintro ⟨outcome, performs, returns⟩
      obtain ⟨_ | ⟨first, rest⟩, rfl, least, -⟩ := fits
      · cases least
      obtain ⟨result, rfl, valid⟩ := new.registered_of_performs history performs
      rw [valueOf?_registered, Option.some.injEq] at returns
      exact ⟨result, performs, returns.symm, valid⟩
    · rintro ⟨result, performs, rfl, -⟩
      exact ⟨_, performs, valueOf?_registered result⟩
  case refuses =>
    intro unfit moves n trace value
    exact call_iff_of_error (operation_of_not_isRequest registers unfit session)

def unended : Value := .pair (.string "tick") (.pair .nil (.string "end"))

theorem not_isRequest_unended : ¬ IsRequest unended := by
  rintro ⟨vs, h, -⟩
  cases (congrArg Value.isList h).trans (Value.isList_ofList vs)

theorem registering_refines_registration_earlyDelivery : ∃ m, Machine.counting.IsNew ∧
    Machine.counting.run Machine.earlyDelivery = some (m, Machine.earlyDeliveryTrace) ∧
    exec.Registers true ∧ ¬ IsRequest unended ∧ unended.pairs = 2 ∧
    exec.Refines true m unended none ∧ IsRequest (.ofList [.string "tick"]) ∧
    exec.Refines true m (.ofList [.string "tick"]) none := by
  obtain ⟨m, history⟩ := Machine.counting_run_earlyDelivery
  exact ⟨m, Machine.counting_isNew, history, .exec, not_isRequest_unended, rfl,
    registering_refines_registration Machine.counting_isNew history .exec unended none,
    ⟨_, rfl, by decide, by decide⟩,
    registering_refines_registration Machine.counting_isNew history .exec _ none⟩

end NativeProcedure

end ScriptEvents
