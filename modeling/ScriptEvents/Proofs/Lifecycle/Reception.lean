import ScriptEvents.Lifecycle
/-!
Reception: what one read of a receiver does to the events that it has yet to read. Nothing is
obtained out of order, and only a receiver that is further behind than the bus retains loses events.
-/
namespace ScriptEvents

structure RoundsUp (n power : Nat) : Prop where
  isPowerOfTwo : power.isPowerOfTwo
  le : n ≤ power
  least (other : Nat) : other.isPowerOfTwo → n ≤ other → power ≤ other

namespace LifecycleBus

variable {b : LifecycleBus} {r : LifecycleReceiver}

theorem retention_ofCapacity (capacity : Nat) :
    RoundsUp (max 1 capacity) (ofCapacity capacity).retention := by
  unfold retention ofCapacity
  dsimp only
  split
  next small =>
    refine ⟨Nat.isPowerOfTwo_one, small, fun _ _ above => ?_⟩
    exact Nat.le_trans (Nat.le_max_left 1 capacity) above
  next large =>
    rw [Nat.one_shiftLeft]
    have above := Nat.lt_log2_self (n := max 1 capacity - 1)
    refine ⟨⟨_, rfl⟩, by omega, ?_⟩
    rintro _ ⟨k, rfl⟩ hk
    have below := (Nat.log2_lt (n := max 1 capacity - 1) (k := k) (by omega)).2 (by omega)
    exact Nat.pow_le_pow_right (by decide) below

def pending (b : LifecycleBus) (r : LifecycleReceiver) : List LifecycleEvent :=
  b.log.toList.drop r.position

theorem length_pending (b : LifecycleBus) (r : LifecycleReceiver) :
    (b.pending r).length = b.log.size - r.position := by
  simp [pending]

@[simp] theorem pending_subscribe (b : LifecycleBus) : b.pending b.subscribe = [] := by
  simp [pending, subscribe]

theorem eq_subscribe (placed : r.position ≤ b.log.size) (h : b.pending r = []) :
    r = b.subscribe := by
  have hlength := b.length_pending r
  rw [h] at hlength
  obtain ⟨position⟩ := r
  have hposition : position = b.log.size := Nat.le_antisymm placed (Nat.le_of_sub_eq_zero hlength.symm)
  rw [hposition]
  rfl

@[simp] theorem retention_publishAll (b : LifecycleBus) (events : List LifecycleEvent) :
    (b.publishAll events).retention = b.retention := by
  induction events generalizing b with
  | nil => rfl
  | cons e rest ih => exact ih (b.publish e)

@[simp] theorem isOpen_publishAll (b : LifecycleBus) (events : List LifecycleEvent) :
    (b.publishAll events).isOpen = b.isOpen := by
  induction events generalizing b with
  | nil => rfl
  | cons e rest ih => exact ih (b.publish e)

@[simp] theorem log_publishAll (b : LifecycleBus) (events : List LifecycleEvent) :
    (b.publishAll events).log.toList = b.log.toList ++ events := by
  induction events generalizing b with
  | nil => exact (List.append_nil _).symm
  | cons e rest ih =>
    change ((b.publish e).publishAll rest).log.toList = _
    rw [ih]
    simp [publish]

theorem receive_cases (b : LifecycleBus) (r : LifecycleReceiver) :
    (b.retention < (b.pending r).length ∧ b.receive r =
      (b.subscribe, .error (.lagged ((b.pending r).length - b.retention)))) ∨
    (∃ e, (b.pending r).length ≤ b.retention ∧ b.pending r = e :: b.pending ⟨r.position + 1⟩ ∧
      b.receive r = (⟨r.position + 1⟩, .ok (some e))) ∨
    b.pending r = [] ∧ b.receive r =
      (r, if b.isOpen then .ok none else .error (.receiveFailed "channel closed")) := by
  rw [length_pending]
  unfold receive
  dsimp only
  split
  next lagged => exact .inl ⟨lagged, rfl⟩
  next near =>
    split
    next e hfirst =>
      obtain ⟨inside, rfl⟩ := Array.getElem?_eq_some_iff.1 hfirst
      exact .inr (.inl ⟨_, Nat.le_of_not_lt near, List.drop_eq_getElem_cons inside, rfl⟩)
    next hnone =>
      have hend := Array.getElem?_eq_none_iff.1 hnone
      exact .inr (.inr ⟨List.drop_eq_nil_of_le hend, rfl⟩)

structure Takes (b : LifecycleBus) (r after : LifecycleReceiver) (events : List LifecycleEvent) :
    Prop where
  placed : after.position ≤ b.log.size
  inOrder : (events ++ b.pending after).Sublist (b.pending r)
  complete : (b.pending r).length ≤ b.retention → events ++ b.pending after = b.pending r

theorem receive_takes (placed : r.position ≤ b.log.size) :
    b.Takes r (b.receive r).1 (b.receive r).2.toOption.join.toList := by
  rcases b.receive_cases r with ⟨lagged, hreceive⟩ | ⟨e, -, hpending, hreceive⟩ |
    ⟨hnone, hreceive⟩
  · rw [hreceive]
    refine ⟨Nat.le_refl _, ?_, fun near => by omega⟩
    rw [pending_subscribe]
    exact List.nil_sublist _
  · rw [hreceive]
    refine ⟨?_, hpending ▸ .refl _, fun _ => hpending.symm⟩
    have hlength := b.length_pending r
    rw [hpending, List.length_cons] at hlength
    dsimp only
    omega
  · have hnothing : (b.receive r).2.toOption.join.toList = [] := by
      rw [hreceive]
      cases b.isOpen <;> rfl
    rw [hnothing, hreceive]
    exact ⟨placed, .refl _, fun _ => rfl⟩

theorem readUpTo_of_pending {n : Nat} (placed : r.position ≤ b.log.size)
    (enough : (b.pending r).length < n) (near : (b.pending r).length ≤ b.retention) :
    ∃ error, b.readUpTo n r = (b.subscribe, b.pending r, error) := by
  induction n generalizing r with
  | zero => cases enough
  | succ n ih =>
    unfold readUpTo
    rcases b.receive_cases r with ⟨lagged, -⟩ | ⟨e, -, hpending, hreceive⟩ | ⟨hnone, hreceive⟩
    · omega
    · have taken := receive_takes placed
      rw [hreceive] at taken ⊢
      rw [hpending, List.length_cons] at enough near
      obtain ⟨error, hrest⟩ :=
        ih taken.placed (Nat.lt_of_succ_lt_succ enough) (Nat.le_of_succ_le near)
      refine ⟨error, ?_⟩
      dsimp only
      rw [hrest, hpending]
    · rw [hreceive, hnone, eq_subscribe placed hnone]
      cases b.isOpen <;> exact ⟨_, rfl⟩

theorem drain_eq (placed : r.position ≤ b.log.size) : b.drain r =
    (b.subscribe, if (b.pending r).length ≤ b.retention then b.pending r else []) := by
  change ((b.readAll r).1, (b.readAll r).2.1) = _
  unfold readAll
  by_cases near : (b.pending r).length ≤ b.retention
  · have enough : (b.pending r).length < b.log.size - r.position + 1 := by
      rw [length_pending]
      exact Nat.lt_succ_self _
    obtain ⟨error, hread⟩ := readUpTo_of_pending placed enough near
    rw [hread, if_pos near]
  · have lagged : ∃ error, b.receive r = (b.subscribe, .error error) := by
      rcases b.receive_cases r with ⟨-, hreceive⟩ | ⟨_, near', -⟩ | ⟨hnone, -⟩
      · exact ⟨_, hreceive⟩
      · exact absurd near' near
      · rw [hnone] at near
        exact absurd (Nat.zero_le _) near
    obtain ⟨error, hreceive⟩ := lagged
    unfold readUpTo
    rw [hreceive, if_neg near]

theorem drain_takes (placed : r.position ≤ b.log.size) :
    b.Takes r (b.drain r).1 (b.drain r).2 := by
  rw [drain_eq placed]
  refine ⟨Nat.le_refl _, ?_, fun near => ?_⟩
  · rw [pending_subscribe, List.append_nil]
    split
    · exact .refl _
    · exact List.nil_sublist _
  · rw [pending_subscribe, List.append_nil, if_pos near]

end LifecycleBus

end ScriptEvents
