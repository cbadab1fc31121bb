import ScriptEvents.Error
/-!
Listeners: what a registration stores under an id, the copy of it that others may keep, and the
outcome of a registration.
-/
namespace ScriptEvents

structure Subscription where
  id : ListenerId
  name : String
  options : Value
  callback : Option Procedure
  once : Bool
  deriving DecidableEq, Repr

/-- A token for the host's way to stop the work behind one listener. Each token stands for one
handle that one directive supplied, and is spent when the handle runs. -/
structure CancelHandle where
  serial : Nat
  deriving DecidableEq, Repr

def CancelHandle.inspected (_ : CancelHandle) : String :=
  Text.Inspected.call "CancelHandle" "<function>"

structure Listener extends Subscription where
  handle : Option CancelHandle := none
  deriving DecidableEq, Repr

structure Snapshot extends Subscription where
  cancellable : Bool
  deriving DecidableEq, Repr

def Listener.snapshot (l : Listener) : Snapshot :=
  { l.toSubscription with cancellable := l.handle.isSome }

inductive Registration where
  | active (listener : Snapshot)
  | ignored (name : String)
  deriving DecidableEq, Repr

namespace Registration

def id : Registration → ListenerId
  | active listener => listener.id
  | ignored _ => .invalid

def isIgnored : Registration → Bool
  | active _ => false
  | ignored _ => true

def listener? : Registration → Option Snapshot
  | active listener => some listener
  | ignored _ => none

end Registration

/-!
Where listener ids come from: a counter, one counter per session, or somebody outside.
-/

abbrev Session := UInt32

structure AllocationContext where
  session : Option Session
  name : String
  request : Value
  callback : Option Procedure
  deriving DecidableEq, Repr

inductive IdSource where
  -- Counts up from `next`, and from the greatest integer on to the least.
  | sequential (next : ListenerId)
  -- Counts in every namespace of sessions; a namespace not listed stands at zero.
  | sessionScoped (counters : List (UInt32 × UInt32))
  | external
  deriving DecidableEq, Repr

namespace IdSource

/-- Sessions share a namespace when their low 31 bits agree. No session is session zero. -/
def namespaceOf (session : Option Session) : UInt32 :=
  session.getD 0 % 0x80000000

/-- The namespace in bits 32 to 62 and the count in the bits below, so never a negative id. -/
def scopedId (space count : UInt32) : ListenerId :=
  .ofNat (space.toNat * 0x100000000 + count.toNat)

def sessionOf (id : ListenerId) : UInt32 :=
  .ofNat (id.toInt / 0x100000000 % 0x80000000).toNat

def setCounter (space count : UInt32) : List (UInt32 × UInt32) → List (UInt32 × UInt32)
  | [] => [(space, count)]
  | (other, kept) :: rest =>
    if other = space then (space, count) :: rest else (other, kept) :: setCounter space count rest

theorem lookup_setCounter (space count other : UInt32) (counters : List (UInt32 × UInt32)) :
    (setCounter space count counters).lookup other =
      if other = space then some count else counters.lookup other := by
  induction counters with
  | nil =>
    by_cases h : other = space
    · simp [setCounter, h]
    · have : (other == space) = false := by simpa using h
      simp [setCounter, List.lookup_cons, this, h]
  | cons entry rest ih =>
    obtain ⟨listed, kept⟩ := entry
    simp only [setCounter]
    split
    next h =>
      subst h
      by_cases ho : other = listed
      · simp [ho]
      · have : (other == listed) = false := by simpa using ho
        simp [List.lookup_cons, this, ho]
    next h =>
      by_cases ho : other = listed
      · simp [ho, h]
      · have : (other == listed) = false := by simpa using ho
        simp [List.lookup_cons, this, ih]

/-- The next id, and the source after it; none if someone else has to be asked. -/
def next? (session : Option Session) : IdSource → Option (ListenerId × IdSource)
  | sequential next => some (next, sequential (next + 1))
  | sessionScoped counters =>
    let space := namespaceOf session
    let count := (counters.lookup space).getD 0
    some (scopedId space count, sessionScoped (setCounter space (count + 1) counters))
  | external => none

def take : IdSource → List (Option Session) → List ListenerId
  | _, [] => []
  | source, session :: rest =>
    match source.next? session with
    | some (id, source) => id :: source.take rest
    | none => []

end IdSource

end ScriptEvents
