import Mathlib.Data.List.Nodup
import ScriptEvents.Registry.Machine
/-!
Custody of cancel handles: where ids come once and each listener is supplied at most once, a handle
is held by its listener as long as that is stored, and has run exactly once when it is gone.
-/
namespace ScriptEvents

structure Ledger where
  registered : List ListenerId := []
  supplied : List (ListenerId × CancelHandle) := []
  removed : List ListenerId := []
  spent : List CancelHandle := []

namespace Ledger

instance : Append Ledger where
  append a b :=
    { registered := a.registered ++ b.registered
      supplied := a.supplied ++ b.supplied
      removed := a.removed ++ b.removed
      spent := a.spent ++ b.spent }

theorem append_def (a b : Ledger) : a ++ b =
    { registered := a.registered ++ b.registered
      supplied := a.supplied ++ b.supplied
      removed := a.removed ++ b.removed
      spent := a.spent ++ b.spent } := rfl

theorem append_empty (ledger : Ledger) : ledger ++ {} = ledger := by
  simp [append_def]

theorem append_registered (ledger : Ledger) (id : ListenerId) :
    ledger ++ { registered := [id] } =
      { ledger with registered := ledger.registered ++ [id] } := by
  simp [append_def]

theorem append_supplied (ledger : Ledger) (id : ListenerId) (handle : CancelHandle) :
    ledger ++ { supplied := [(id, handle)] } =
      { ledger with supplied := ledger.supplied ++ [(id, handle)] } := by
  simp [append_def]

theorem append_late (ledger : Ledger) (id : ListenerId) (handle : CancelHandle) :
    ledger ++ { supplied := [(id, handle)], spent := [handle] } =
      { ledger with
        supplied := ledger.supplied ++ [(id, handle)]
        spent := ledger.spent ++ [handle] } := by
  simp [append_def]

theorem append_removed (ledger : Ledger) (id : ListenerId) (handles : List CancelHandle) :
    ledger ++ { removed := [id], spent := handles } =
      { ledger with removed := ledger.removed ++ [id], spent := ledger.spent ++ handles } := by
  simp [append_def]

/-- A stored listener holds the handle; it has run once since a listener went. -/
def Settled (ledger : Ledger) (handle : CancelHandle) : Option Listener → Prop
  | some l => l.handle = some handle ∧ ledger.spent.count handle = 0
  | none => ledger.spent.count handle = 1

theorem Settled.spend {ledger after : Ledger} {handle : CancelHandle} {l : Option Listener}
    {now : List CancelHandle} (h : ledger.Settled handle l) (others : now.count handle = 0)
    (hspent : after.spent = ledger.spent ++ now := by rfl) : after.Settled handle l := by
  unfold Settled at h ⊢
  simpa only [hspent, List.count_append, others, Nat.add_zero] using h

structure Sound (ledger : Ledger) (handles : Nat) : Prop where
  known : ∀ id handle, (id, handle) ∈ ledger.supplied → id ∈ ledger.registered
  numbered : ∀ id handle, (id, handle) ∈ ledger.supplied → handle.serial < handles
  distinct : (ledger.supplied.map Prod.snd).Nodup
  accounted : ∀ handle ∈ ledger.spent, ∃ id, (id, handle) ∈ ledger.supplied

namespace Sound

variable {ledger : Ledger} {handles : Nat} {id : ListenerId} {handle : CancelHandle}

theorem ne_next (sound : ledger.Sound handles) (h : (id, handle) ∈ ledger.supplied) :
    handle ≠ ⟨handles⟩ := by
  rintro rfl
  exact Nat.lt_irrefl _ (sound.numbered _ _ h)

theorem id_eq (sound : ledger.Sound handles) {other : ListenerId}
    (h : (id, handle) ∈ ledger.supplied) (h' : (other, handle) ∈ ledger.supplied) : id = other :=
  congrArg Prod.fst (List.inj_on_of_nodup_map sound.distinct h h' rfl)

theorem count_next (sound : ledger.Sound handles) : ledger.spent.count ⟨handles⟩ = 0 := by
  refine List.count_eq_zero.2 fun h => ?_
  obtain ⟨id, hsupplied⟩ := sound.accounted _ h
  exact sound.ne_next hsupplied rfl

theorem register (sound : ledger.Sound handles) (id : ListenerId) :
    { ledger with registered := ledger.registered ++ [id] : Ledger }.Sound handles where
  known other handle h := List.mem_append_left _ (sound.known other handle h)
  numbered := sound.numbered
  distinct := sound.distinct
  accounted := sound.accounted

theorem supply (sound : ledger.Sound handles) (registered : id ∈ ledger.registered) :
    { ledger with supplied := ledger.supplied ++ [(id, ⟨handles⟩)] : Ledger }.Sound
      (handles + 1) where
  known other handle h := by
    rcases List.mem_append.1 h with h | h
    · exact sound.known other handle h
    · cases List.mem_singleton.1 h
      exact registered
  numbered other handle h := by
    rcases List.mem_append.1 h with h | h
    · exact Nat.lt_succ_of_lt (sound.numbered other handle h)
    · cases List.mem_singleton.1 h
      exact Nat.lt_succ_self _
  distinct := by
    rw [List.map_append, List.nodup_append]
    refine ⟨sound.distinct, List.nodup_singleton _, fun handle hmem next hnext => ?_⟩
    obtain ⟨⟨other, _⟩, hsupplied, rfl⟩ := List.mem_map.1 hmem
    cases List.mem_singleton.1 hnext
    exact sound.ne_next hsupplied
  accounted handle h := by
    obtain ⟨other, hsupplied⟩ := sound.accounted handle h
    exact ⟨other, List.mem_append_left _ hsupplied⟩

theorem depart (sound : ledger.Sound handles) (id : ListenerId) :
    { ledger with removed := ledger.removed ++ [id] : Ledger }.Sound handles where
  known := sound.known
  numbered := sound.numbered
  distinct := sound.distinct
  accounted := sound.accounted

theorem spend (sound : ledger.Sound handles) {now : List CancelHandle}
    (supplied : ∀ handle ∈ now, ∃ id, (id, handle) ∈ ledger.supplied) :
    { ledger with spent := ledger.spent ++ now : Ledger }.Sound handles where
  known := sound.known
  numbered := sound.numbered
  distinct := sound.distinct
  accounted handle h := by
    rcases List.mem_append.1 h with h | h
    · exact sound.accounted handle h
    · exact supplied handle h

end Sound

end Ledger

/-- The ledger is sound, and tells where every handle supplied for these listeners is. -/
structure Custody (ledger : Ledger) (listeners : Roster) (handles : Nat) : Prop where
  sound : ledger.Sound handles
  held : ∀ id l handle, listeners.find? id = some l → l.handle = some handle →
    (id, handle) ∈ ledger.supplied
  settled : ∀ id handle, (id, handle) ∈ ledger.supplied →
    ledger.Settled handle (listeners.find? id)
  departed : ∀ id ∈ ledger.registered, listeners.find? id = none → id ∈ ledger.removed

namespace Custody

variable {ledger : Ledger} {listeners : Roster} {handles : Nat} {id : ListenerId}

theorem empty : Custody {} .empty 0 where
  sound :=
    { known := nofun
      numbered := nofun
      distinct := .nil
      accounted := nofun }
  held _ _ _ h := nomatch h
  settled _ _ h := nomatch h
  departed _ h := nomatch h

theorem nothing (kept : Custody ledger listeners handles) :
    Custody (ledger ++ {}) listeners handles := by
  rwa [Ledger.append_empty]

theorem mem_supplied_iff (kept : Custody ledger listeners handles) {l : Listener}
    (found : listeners.find? id = some l) {handle : CancelHandle} :
    (id, handle) ∈ ledger.supplied ↔ l.handle = some handle := by
  refine ⟨fun h => ?_, kept.held id l handle found⟩
  have settled := kept.settled id handle h
  rw [found] at settled
  exact settled.1

theorem store (kept : Custody ledger listeners handles) {l : Listener} {roster : Roster}
    (vacant : listeners.insert? l = some roster) (bare : l.handle = none)
    (new : l.id ∉ ledger.registered) :
    Custody (ledger ++ { registered := [l.id] }) roster handles := by
  rw [Ledger.append_registered]
  constructor
  case sound => exact kept.sound.register l.id
  case held =>
    intro id stored handle found hstored
    rw [Roster.find?_insert? vacant] at found
    split at found
    · cases found
      rw [bare] at hstored
      cases hstored
    · exact kept.held id stored handle found hstored
  case settled =>
    intro id handle h
    have hne : l.id ≠ id := by
      rintro rfl
      exact new (kept.sound.known _ _ h)
    rw [Roster.find?_insert? vacant, if_neg hne]
    exact kept.settled id handle h
  case departed =>
    intro id h absent
    rw [Roster.find?_insert? vacant] at absent
    split at absent
    · cases absent
    next hne => exact kept.departed id (by simpa [Ne.symm hne] using h) absent

theorem supply (kept : Custody ledger listeners handles) {l : Listener}
    (found : listeners.find? id = some l) (registered : id ∈ ledger.registered)
    (first : ∀ handle, (id, handle) ∉ ledger.supplied) :
    Custody (ledger ++ { supplied := [(id, ⟨handles⟩)] }) (listeners.attach id ⟨handles⟩)
      (handles + 1) := by
  rw [Ledger.append_supplied]
  constructor
  case sound => exact kept.sound.supply registered
  case held =>
    intro other stored handle hfound hstored
    rw [Roster.find?_attach] at hfound
    split at hfound
    next hid =>
      cases hid
      rw [found] at hfound
      cases hfound
      cases hstored
      exact List.mem_append_right _ (List.mem_singleton.2 rfl)
    · exact List.mem_append_left _ (kept.held other stored handle hfound hstored)
  case settled =>
    intro other handle h
    rw [Roster.find?_attach]
    rcases List.mem_append.1 h with h | h
    · rw [if_neg]
      · exact kept.settled other handle h
      · rintro rfl
        exact first handle h
    · cases List.mem_singleton.1 h
      rw [if_pos rfl, found]
      exact ⟨rfl, kept.sound.count_next⟩
  case departed =>
    intro other h absent
    rw [Roster.find?_attach] at absent
    refine kept.departed other h ?_
    split at absent
    · exact Option.map_eq_none_iff.1 absent
    · exact absent

theorem supplyLate (kept : Custody ledger listeners handles) (gone : listeners.find? id = none)
    (registered : id ∈ ledger.registered) :
    Custody (ledger ++ { supplied := [(id, ⟨handles⟩)], spent := [⟨handles⟩] }) listeners
      (handles + 1) := by
  rw [Ledger.append_late]
  constructor
  case sound =>
    refine (kept.sound.supply registered).spend fun handle h => ?_
    cases List.mem_singleton.1 h
    exact ⟨id, List.mem_append_right _ (List.mem_singleton.2 rfl)⟩
  case held =>
    intro other l handle found hl
    exact List.mem_append_left _ (kept.held other l handle found hl)
  case settled =>
    intro other handle h
    rcases List.mem_append.1 h with h | h
    -- The handle that runs now is not one supplied before.
    · have hcount : [(⟨handles⟩ : CancelHandle)].count handle = 0 := by
        simpa [List.count_eq_zero] using kept.sound.ne_next h
      exact (kept.settled other handle h).spend hcount
    · cases List.mem_singleton.1 h
      rw [gone]
      simp [Ledger.Settled, kept.sound.count_next]
  case departed => exact kept.departed

theorem remove (kept : Custody ledger listeners handles) {l : Listener}
    (found : listeners.find? id = some l) :
    Custody (ledger ++ { removed := [id], spent := l.handle.toList }) (listeners.erase id)
      handles := by
  rw [Ledger.append_removed]
  constructor
  case sound =>
    refine (kept.sound.depart id).spend fun handle h => ?_
    exact ⟨id, kept.held id l handle found (Option.mem_toList.1 h)⟩
  case held =>
    intro other stored handle hfound hstored
    rw [Roster.find?_erase] at hfound
    split at hfound
    · cases hfound
    · exact kept.held other stored handle hfound hstored
  case settled =>
    intro other handle h
    have hsettled := kept.settled other handle h
    rw [Roster.find?_erase]
    split
    next hid =>
      cases hid
      rw [found] at hsettled
      obtain ⟨hhandle, hcount⟩ := hsettled
      simp [Ledger.Settled, hhandle, hcount]
    next hne =>
      refine hsettled.spend (List.count_eq_zero.2 fun hmem => hne ?_)
      have hheld := kept.held id l handle found (Option.mem_toList.1 hmem)
      exact kept.sound.id_eq hheld h
  case departed =>
    intro other h absent
    rw [Roster.find?_erase] at absent
    split at absent
    next hid => exact List.mem_append_right _ (List.mem_singleton.2 hid.symm)
    next => exact List.mem_append_left _ (kept.departed other h absent)

end Custody

end ScriptEvents
