import ScriptEvents.Proofs.IdSource.Distinct
/-!
Namespaces of sessions: each counts for itself, whatever happens in the others, and an id tells the
namespace that it was given in. Only when the count of a namespace has come round does it give an id
again.
-/
namespace ScriptEvents

namespace IdSource

def spaceOf (session : Option Session) : Nat :=
  session.elim 0 UInt32.toNat % 0x80000000

/-- How many of the registrations before this one were in the namespace. -/
def rank (sessions : List (Option Session)) (space i : Nat) : Nat :=
  (sessions.take i).countP (spaceOf · = space)

/-- The ids given to these sessions, which were counted in every namespace from zero on. -/
structure CountsByNamespace (sessions : List (Option Session)) (ids : List ListenerId) : Prop where
  length : ids.length = sessions.length
  value (i : Nat) (session : Option Session) (id : ListenerId) :
    sessions[i]? = some session → ids[i]? = some id → id.toInt =
      spaceOf session * 0x100000000 + rank sessions (spaceOf session) i % 0x100000000
  bits (i : Nat) (session : Option Session) (id : ListenerId) :
    sessions[i]? = some session → ids[i]? = some id →
      id = Int64.ofNat (spaceOf session) <<< 32 |||
        Int64.ofNat (rank sessions (spaceOf session) i % 0x100000000)
  nonneg : ∀ id ∈ ids, 0 ≤ id.toInt
  sessionOf (i : Nat) (session : Option Session) (id : ListenerId) :
    sessions[i]? = some session → ids[i]? = some id → (sessionOf id).toNat = spaceOf session
  alone (space : Nat) :
    ((sessions.zip ids).filter (spaceOf ·.1 = space)).map Prod.snd =
      (sessionScoped []).take (sessions.filter (spaceOf · = space))
  -- An id comes again only in its namespace, when that has come round.
  same_iff (i j : Nat) (session other : Option Session) :
    sessions[i]? = some session → sessions[j]? = some other →
      (ids[i]? = ids[j]? ↔ spaceOf session = spaceOf other ∧
        (0x100000000 : Int) ∣
          rank sessions (spaceOf session) i - rank sessions (spaceOf other) j)

variable {counters others : List (UInt32 × UInt32)} {sessions : List (Option Session)}
  {space count : UInt32} {session other : Option Session} {id : ListenerId} {i : Nat}

theorem toNat_namespaceOf (session : Option Session) :
    (namespaceOf session).toNat = spaceOf session := by
  cases session <;> simp [namespaceOf, spaceOf]

theorem namespaceOf_eq_iff :
    namespaceOf session = namespaceOf other ↔ spaceOf session = spaceOf other := by
  rw [← UInt32.toNat_inj, toNat_namespaceOf, toNat_namespaceOf]

theorem countOf_nil (space : UInt32) : countOf [] space = 0 := rfl

theorem countP_namespaceOf (sessions : List (Option Session)) (session : Option Session) (i : Nat) :
    (sessions.take i).countP (namespaceOf · = namespaceOf session) =
      rank sessions (spaceOf session) i := by
  simp only [rank, namespaceOf_eq_iff]

theorem length_take_sessionScoped (counters : List (UInt32 × UInt32))
    (sessions : List (Option Session)) :
    ((sessionScoped counters).take sessions).length = sessions.length := by
  induction sessions generalizing counters with
  | nil => rfl
  | cons first rest ih => simp only [take, next?, List.length_cons, ih]

theorem toInt_scopedId (bounded : space.toNat < 0x80000000) :
    (scopedId space count).toInt = space.toNat * 0x100000000 + count.toNat := by
  have hcount := count.toNat_lt
  rw [scopedId, Int64.toInt_ofNat_of_lt (by omega)]
  omega

theorem toNat_sessionOf_scopedId (bounded : space.toNat < 0x80000000) :
    (IdSource.sessionOf (scopedId space count)).toNat = space.toNat := by
  have hcount := count.toNat_lt
  rw [IdSource.sessionOf, toInt_scopedId bounded, UInt32.toNat_ofNat']
  omega

theorem scopedId_eq_or (space count : UInt32) :
    scopedId space count = Int64.ofNat space.toNat <<< 32 ||| Int64.ofNat count.toNat := by
  have apart := Nat.shiftLeft_add_eq_or_of_lt count.toNat_lt space.toNat
  have shifted : Int64.ofNat (space.toNat <<< 32) = Int64.ofNat space.toNat <<< 32 := by
    apply Int64.toBitVec_inj.1
    apply BitVec.eq_of_toNat_eq
    simp
  have joined : Int64.ofNat (space.toNat <<< 32 ||| count.toNat) =
      Int64.ofNat (space.toNat <<< 32) ||| Int64.ofNat count.toNat :=
    Int64.toBitVec_inj.1 BitVec.ofNat_or
  rw [← shifted, ← joined, ← apart, Nat.shiftLeft_eq, scopedId]

theorem take_sessionScoped_congr (same : ∀ session ∈ sessions,
      countOf counters (namespaceOf session) = countOf others (namespaceOf session)) :
    (sessionScoped counters).take sessions = (sessionScoped others).take sessions := by
  refine List.ext_getElem? fun i => ?_
  rw [getElem?_take_sessionScoped, getElem?_take_sessionScoped]
  refine Option.map_congr fun session hsession => ?_
  rw [same session (List.mem_of_getElem? hsession)]

theorem filter_take_sessionScoped (counters : List (UInt32 × UInt32))
    (sessions : List (Option Session)) (space : Nat) :
    ((sessions.zip ((sessionScoped counters).take sessions)).filter
        (spaceOf ·.1 = space)).map Prod.snd =
      (sessionScoped counters).take (sessions.filter (spaceOf · = space)) := by
  induction sessions generalizing counters with
  | nil => rfl
  | cons first rest ih =>
    simp only [take, next?, List.zip_cons_cons]
    by_cases hspace : spaceOf first = space
    · rw [List.filter_cons_of_pos (by simpa using hspace),
        List.filter_cons_of_pos (by simpa using hspace), List.map_cons, ih]
      rfl
    · rw [List.filter_cons_of_neg (by simpa using hspace),
        List.filter_cons_of_neg (by simpa using hspace), ih]
      refine take_sessionScoped_congr fun session hsession => ?_
      have hsession : spaceOf session = space := by simpa using (List.mem_filter.1 hsession).2
      rw [countOf_setCounter, if_neg fun heq => hspace ((namespaceOf_eq_iff.1 heq) ▸ hsession)]

def allotted (sessions : List (Option Session)) (session : Option Session) (i : Nat) : ListenerId :=
  scopedId (namespaceOf session) (.ofNat (rank sessions (spaceOf session) i))

theorem getElem?_take_allotted (here : sessions[i]? = some session) :
    ((sessionScoped []).take sessions)[i]? = some (allotted sessions session i) := by
  rw [getElem?_take_sessionScoped, here, Option.map_some, countP_namespaceOf, countOf_nil,
    UInt32.zero_add, allotted]

theorem toInt_allotted (sessions : List (Option Session)) (session : Option Session) (i : Nat) :
    (allotted sessions session i).toInt =
      spaceOf session * 0x100000000 + rank sessions (spaceOf session) i % 0x100000000 := by
  rw [allotted, toInt_scopedId (namespaceOf_lt session), toNat_namespaceOf, UInt32.toNat_ofNat']
  rfl

theorem counts_by_namespace (sessions : List (Option Session)) :
    CountsByNamespace sessions ((sessionScoped []).take sessions) := by
  have given {i session id} (here : sessions[i]? = some session)
      (hid : ((sessionScoped []).take sessions)[i]? = some id) : id = allotted sessions session i :=
    Option.some.inj (hid.symm.trans (getElem?_take_allotted here))
  have length := length_take_sessionScoped [] sessions
  constructor
  case length => exact length
  case value =>
    intro i session id here hid
    rw [given here hid, toInt_allotted]
  case bits =>
    intro i session id here hid
    rw [given here hid, allotted, scopedId_eq_or, toNat_namespaceOf, UInt32.toNat_ofNat']
  case nonneg =>
    intro id hid
    obtain ⟨i, hi, rfl⟩ := List.getElem_of_mem hid
    have here := List.getElem?_eq_getElem (length ▸ hi)
    rw [given here (List.getElem?_eq_getElem hi), toInt_allotted]
    omega
  case sessionOf =>
    intro i session id here hid
    rw [given here hid, allotted, toNat_sessionOf_scopedId (namespaceOf_lt session),
      toNat_namespaceOf]
  case alone => exact filter_take_sessionScoped [] sessions
  case same_iff =>
    intro i j session other here there
    rw [getElem?_take_allotted here, getElem?_take_allotted there, Option.some_inj,
      ← Int64.toInt_inj, toInt_allotted, toInt_allotted]
    omega

-- Sessions that differ in bit 31 alone count together, and none counts as session zero.
example : (sessionScoped []).take [some 0x80000001, none, some 1, some 0] =
    [0x100000000, 0, 0x100000001, 1] := by
  decide

end IdSource

end ScriptEvents
