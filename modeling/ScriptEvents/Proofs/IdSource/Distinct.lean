import Mathlib.Data.List.Nodup
import ScriptEvents.Proofs.Machine.Step
/-!
Which ids the sources give, and how long a source goes on before one comes again. A registry
registers under ids it was given, each for one registration.
-/
namespace ScriptEvents

namespace IdSource

theorem ofNat_inj_of_lt {j k : Nat} (hj : j < UInt64.size) (hk : k < UInt64.size)
    (h : Int64.ofNat j = Int64.ofNat k) : j = k := by
  have hbits := congrArg (fun n : Int64 => n.toBitVec.toNat) h
  simp only [Int64.toBitVec_ofNat', BitVec.toNat_ofNat] at hbits
  rwa [Nat.mod_eq_of_lt hj, Nat.mod_eq_of_lt hk] at hbits

theorem take_sequential (first : ListenerId) (sessions : List (Option Session)) :
    (sequential first).take sessions =
      (List.range sessions.length).map fun k => first + .ofNat k := by
  induction sessions generalizing first with
  | nil => rfl
  | cons session rest ih =>
    have hshift : ∀ k : Nat, first + 1 + .ofNat k = first + Int64.ofNat (k + 1) := by
      intro k
      rw [Int64.ofNat_add, Int64.add_comm (.ofNat k), ← Int64.add_assoc]
      rfl
    simp only [take, next?, ih, List.length_cons, List.range_succ_eq_map, List.map_cons,
      List.map_map, Function.comp_def, hshift]
    congr 1
    exact (Int64.add_zero first).symm

theorem nodup_take_sequential (first : ListenerId) {sessions : List (Option Session)}
    (h : sessions.length ≤ UInt64.size) : ((sequential first).take sessions).Nodup := by
  rw [take_sequential]
  refine List.nodup_range.map_on fun j hj k hk heq => ?_
  have hj := Nat.lt_of_lt_of_le (List.mem_range.1 hj) h
  have hk := Nat.lt_of_lt_of_le (List.mem_range.1 hk) h
  exact ofNat_inj_of_lt hj hk ((Int64.add_right_inj _).1 heq)

theorem namespaceOf_lt (session : Option Session) : (namespaceOf session).toNat < 0x80000000 := by
  unfold namespaceOf
  rw [UInt32.toNat_mod]
  exact Nat.mod_lt _ (by decide)

theorem scopedId_inj {space other count kept : UInt32} (hspace : space.toNat < 0x80000000)
    (hother : other.toNat < 0x80000000) (h : scopedId space count = scopedId other kept) :
    space = other ∧ count = kept := by
  have hcount := count.toNat_lt
  have hkept := kept.toNat_lt
  have hsize : UInt64.size = 0x100000000 * 0x100000000 := rfl
  have hnat := ofNat_inj_of_lt (by omega) (by omega) h
  constructor
  · apply UInt32.toNat_inj.1
    omega
  · apply UInt32.toNat_inj.1
    omega

def countOf (counters : List (UInt32 × UInt32)) (space : UInt32) : UInt32 :=
  (counters.lookup space).getD 0

theorem countOf_setCounter (counters : List (UInt32 × UInt32)) (space count other : UInt32) :
    countOf (setCounter space count counters) other =
      if other = space then count else countOf counters other := by
  unfold countOf
  rw [lookup_setCounter]
  split <;> rfl

theorem getElem?_take_sessionScoped (counters : List (UInt32 × UInt32))
    (sessions : List (Option Session)) (i : Nat) :
    ((sessionScoped counters).take sessions)[i]? = sessions[i]?.map fun session =>
      scopedId (namespaceOf session) (countOf counters (namespaceOf session) +
        .ofNat ((sessions.take i).countP (namespaceOf · = namespaceOf session))) := by
  induction sessions generalizing counters i with
  | nil => simp [take]
  | cons first rest ih =>
    simp only [take, next?]
    cases i with
    | zero => simp [countOf]
    | succ i =>
      rw [List.getElem?_cons_succ, List.getElem?_cons_succ, ih]
      refine Option.map_congr fun session _ => ?_
      rw [countOf_setCounter, List.take_succ_cons, List.countP_cons]
      by_cases hspace : namespaceOf session = namespaceOf first
      · rw [if_pos hspace, if_pos (by simpa using hspace.symm), UInt32.ofNat_add,
          UInt32.add_comm (.ofNat _), ← UInt32.add_assoc, hspace]
        rfl
      · rw [if_neg hspace, if_neg (by simpa using Ne.symm hspace), Nat.add_zero]

theorem mem_take_sessionScoped {counters : List (UInt32 × UInt32)}
    {sessions : List (Option Session)} {id : ListenerId}
    (h : id ∈ (sessionScoped counters).take sessions) :
    ∃ session ∈ sessions, ∃ k < sessions.countP (namespaceOf · = namespaceOf session),
      id = scopedId (namespaceOf session) (countOf counters (namespaceOf session) + .ofNat k) := by
  obtain ⟨i, hi⟩ := List.mem_iff_getElem?.1 h
  rw [getElem?_take_sessionScoped] at hi
  obtain ⟨session, hsession, rfl⟩ := Option.map_eq_some_iff.1 hi
  refine ⟨session, List.mem_of_getElem? hsession, _, ?_, rfl⟩
  obtain ⟨hlt, heq⟩ := List.getElem?_eq_some_iff.1 hsession
  conv_rhs =>
    rw [← List.take_append_drop i sessions, List.countP_append, List.drop_eq_getElem_cons hlt,
      List.countP_cons_of_pos (by simp [heq])]
  omega

theorem nodup_take_sessionScoped (counters : List (UInt32 × UInt32))
    {sessions : List (Option Session)}
    (h : ∀ space, sessions.countP (namespaceOf · = space) ≤ UInt32.size) :
    ((sessionScoped counters).take sessions).Nodup := by
  induction sessions generalizing counters with
  | nil => exact .nil
  | cons first rest ih =>
    simp only [take, next?]
    refine List.nodup_cons.2 ⟨fun hmem => ?_, ih _ fun space => ?_⟩
    · obtain ⟨session, -, k, hk, heq⟩ := mem_take_sessionScoped hmem
      obtain ⟨hspace, hcount⟩ := scopedId_inj (namespaceOf_lt _) (namespaceOf_lt _) heq
      rw [countOf_setCounter, if_pos hspace.symm] at hcount
      have hbound := h (namespaceOf session)
      rw [List.countP_cons_of_pos (by simpa using hspace)] at hbound
      have hzero : (1 : UInt32) + .ofNat k = 0 := by
        rw [UInt32.add_assoc] at hcount
        exact UInt32.left_eq_add.1 hcount
      have hnat := congrArg UInt32.toNat hzero
      have hsize : UInt32.size = 0x100000000 := rfl
      simp only [UInt32.toNat_add, UInt32.toNat_ofNat', UInt32.reduceToNat] at hnat
      omega
    · have hbound := h space
      rw [List.countP_cons] at hbound
      omega

/-- No id comes again among these: a counter has not come round, neither that of all registrations
nor that of any namespace, and a source outside has not repeated itself. -/
def NeverRepeats : IdSource → List (Option Session × ListenerId) → Prop
  | sequential _, given => given.length ≤ UInt64.size
  | sessionScoped _, given => ∀ space, given.countP (namespaceOf ·.1 = space) ≤ UInt32.size
  | external, given => (given.map Prod.snd).Nodup

theorem NeverRepeats.nodup {source : IdSource} {given : List (Option Session × ListenerId)}
    (h : source.NeverRepeats given)
    (taken : source ≠ .external → given.map Prod.snd = source.take (given.map Prod.fst)) :
    (given.map Prod.snd).Nodup := by
  cases source with
  | sequential first =>
    rw [taken (by simp)]
    exact nodup_take_sequential first (by simpa [NeverRepeats] using h)
  | sessionScoped counters =>
    rw [taken (by simp)]
    refine nodup_take_sessionScoped counters fun space => ?_
    rw [List.countP_map]
    exact h space
  | external => exact h

end IdSource

namespace Registry

theorem Act.allocations_cases {r s : Registry} {seen : Trace} (act : Act r seen s) :
    (∃ session id, r.Assigns session id s.ids ∧ seen.allocations = [(session, id)]) ∨
      seen.allocations = [] ∧ s.ids = r.ids := by
  cases act with
  | plain h => exact .inr ⟨by simp [Trace.allocations, Effect.allocation?_of_isPlain h], rfl⟩
  | edit change => exact .inr ⟨rfl, editDirectory_ids ..⟩
  | assign given => exact .inl ⟨_, _, given, rfl⟩
  | @remove l id reason found unfired => exact .inr ⟨l.allocations_stopping, rfl⟩
  | @fire l id isFinal found alone last => exact .inr ⟨l.allocations_stopping, rfl⟩
  | _ => exact .inr ⟨rfl, rfl⟩

theorem Assigns.next?_of_own {r : Registry} {session : Option Session} {id : ListenerId}
    {ids : IdSource} (given : r.Assigns session id ids) (own : r.ids ≠ .external) :
    r.ids.next? session = some (id, ids) ∧ ids ≠ .external := by
  rcases given with hnext | ⟨outside, -⟩
  · refine ⟨hnext, ?_⟩
    rintro rfl
    cases hids : r.ids <;> simp [hids, IdSource.next?] at hnext
  · exact absurd outside own

theorem Acts.allocations_eq_take {r s : Registry} {seen : Trace} (acts : Acts r seen s)
    (own : r.ids ≠ .external) :
    seen.allocations.map Prod.snd = r.ids.take (seen.allocations.map Prod.fst) := by
  induction acts with
  | @nil r => cases hids : r.ids <;> rfl
  | cons first _ ih =>
    rw [Trace.allocations_append]
    rcases first.allocations_cases with ⟨session, id, given, hnow⟩ | ⟨hnow, hids⟩
    · obtain ⟨hnext, hown⟩ := given.next?_of_own own
      simp [hnow, IdSource.take, hnext, ih hown]
    · rw [hnow, List.nil_append, ih (hids ▸ own), hids]

theorem Course.registrations_sublist {r : Registry} {cause : Cause} {t : Turn}
    (course : Course r cause t) :
    (Trace.registrations t.effects).Sublist ((Trace.allocations t.effects).map Prod.snd) := by
  rw [registrations_effects]
  cases course with
  | store target given vacant => exact List.Sublist.refl _
  | tearDown report left =>
    rw [tearDown_registered]
    exact List.nil_sublist _
  | _ => exact List.nil_sublist _

end Registry

namespace Machine

theorem IsNew.registrations_sublist {start m : Machine} {moves : List Move} {trace : Trace}
    (new : start.IsNew) (history : start.run moves = some (m, trace)) :
    trace.registrations.Sublist (trace.allocations.map Prod.snd) := by
  refine new.invariant (fun trace _ => trace.registrations.Sublist
    (trace.allocations.map Prod.snd)) history (List.Sublist.refl _) fun inv awaits hmove => ?_
  rw [Trace.registrations_append, Trace.allocations_append, List.map_append]
  refine inv.append ?_
  rcases awaits.step hmove with ⟨_, -, rfl⟩ | ⟨cause, _, _, -, course, -, rfl⟩
  · exact List.Sublist.refl _
  · rw [cause.registrations_cons, cause.allocations_cons]
    exact course.registrations_sublist

/-- A source that does not repeat itself leaves no id registered twice. -/
theorem IsNew.registrations_nodup {start m : Machine} {moves : List Move} {trace : Trace}
    (new : start.IsNew) (history : start.run moves = some (m, trace))
    (fresh : start.registry.ids.NeverRepeats trace.allocations) : trace.registrations.Nodup :=
  (fresh.nodup fun own => (new.acts history).allocations_eq_take own).sublist
    (new.registrations_sublist history)

theorem earlyDelivery_neverRepeats :
    counting.registry.ids.NeverRepeats earlyDeliveryTrace.allocations := by
  show [(none, 7)].length ≤ UInt64.size
  decide

end Machine

end ScriptEvents
