import Mathlib.Data.List.Perm.Basic
import ScriptEvents.Proofs.Machine.Step
/-!
Calls and outcomes match like brackets. What passes in an operation is partly its own and partly
that of operations nested in it, which collaborators start while it waits.
-/
namespace ScriptEvents

def Effect.isFlat : Effect → Bool
  | called _ | returned _ => false
  | _ => true

namespace Trace

/-- Every operation called in the trace is over at its end, and so are `n` operations called before
it, but no other. -/
def closes : Nat → Trace → Bool
  | n, [] => n == 0
  | n, .called _ :: trace => closes (n + 1) trace
  | 0, .returned _ :: _ => false
  | n + 1, .returned _ :: trace => closes n trace
  | n, _ :: trace => closes n trace

def Balanced (trace : Trace) : Prop := closes 0 trace = true

instance (trace : Trace) : Decidable trace.Balanced :=
  inferInstanceAs (Decidable (_ = true))

/-- Each effect with the number of operations it is nested in; the call and the outcome of a nested
operation count as part of it. -/
def levels : Nat → Trace → List (Nat × Effect)
  | _, [] => []
  | n, .called operation :: trace => (n + 1, .called operation) :: levels (n + 1) trace
  | n, .returned outcome :: trace => (n, .returned outcome) :: levels (n - 1) trace
  | n, e :: trace => (n, e) :: levels n trace

/-- What passes in an operation itself, not in those nested in it. -/
def own (trace : Trace) : Trace := ((levels 0 trace).filter (·.1 == 0)).map Prod.snd

def nested (trace : Trace) : Trace := ((levels 0 trace).filter (·.1 != 0)).map Prod.snd

/-- The operation is the innermost in progress after the trace. -/
def InCharge (trace : Trace) (operation : Operation) : Prop :=
  ∃ before passed : Trace, trace = before ++ .called operation :: passed ∧ passed.Balanced

def Flat (trace : Trace) : Prop := ∀ e ∈ trace, e.isFlat = true

@[simp] theorem closes_nil (n : Nat) : closes n [] = (n == 0) := by
  unfold closes; rfl

@[simp] theorem closes_called (n : Nat) (operation : Operation) (trace : Trace) :
    closes n (.called operation :: trace) = closes (n + 1) trace := by
  rw [closes]

@[simp] theorem closes_returned_zero (outcome : Outcome) (trace : Trace) :
    closes 0 (.returned outcome :: trace) = false := by
  rw [closes]

@[simp] theorem closes_returned_succ (n : Nat) (outcome : Outcome) (trace : Trace) :
    closes (n + 1) (.returned outcome :: trace) = closes n trace := by
  rw [closes]

theorem closes_cons {e : Effect} (h : e.isFlat = true) (n : Nat) (trace : Trace) :
    closes n (e :: trace) = closes n trace := by
  cases e with
  | called | returned => cases h
  | _ => rw [closes] <;> simp

theorem levels_cons {e : Effect} (h : e.isFlat = true) (n : Nat) (trace : Trace) :
    levels n (e :: trace) = (n, e) :: levels n trace := by
  cases e with
  | called | returned => cases h
  | _ => rw [levels] <;> simp

theorem closes_append {n : Nat} {first : Trace} (h : closes n first = true) (k : Nat)
    (rest : Trace) : closes (n + k) (first ++ rest) = closes k rest := by
  induction first generalizing n with
  | nil => simp_all
  | cons e first ih =>
    cases e with
    | called operation =>
      have h := ih (by simpa using h)
      rw [List.cons_append, closes_called, ← h]
      congr 1
      omega
    | returned outcome =>
      cases n with
      | zero => simp at h
      | succ n =>
        have h := ih (by simpa using h)
        rw [List.cons_append, Nat.succ_add, closes_returned_succ, h]
    | _ =>
      rw [closes_cons rfl] at h
      rw [List.cons_append, closes_cons rfl, ih h]

theorem levels_append {n : Nat} {first : Trace} (h : closes n first = true) (k : Nat)
    (rest : Trace) : levels (n + k) (first ++ rest) = levels (n + k) first ++ levels k rest := by
  induction first generalizing n with
  | nil => simp_all [levels]
  | cons e first ih =>
    cases e with
    | called operation =>
      have h := ih (by simpa using h)
      rw [Nat.add_right_comm] at h
      simp only [List.cons_append, levels, h]
    | returned outcome =>
      cases n with
      | zero => simp at h
      | succ n =>
        have h := ih (by simpa using h)
        simp only [List.cons_append, levels, Nat.succ_add, Nat.add_sub_cancel,
          Nat.succ_eq_add_one, h]
    | _ =>
      rw [closes_cons rfl] at h
      rw [List.cons_append, levels_cons rfl, levels_cons rfl, ih h, List.cons_append]

theorem le_of_mem_levels {n k : Nat} {trace : Trace} (h : closes n trace = true)
    {p : Nat × Effect} (hp : p ∈ levels (n + k) trace) : k ≤ p.1 := by
  induction trace generalizing n with
  | nil => simp [levels] at hp
  | cons e trace ih =>
    cases e with
    | called operation =>
      simp only [levels, List.mem_cons] at hp
      rcases hp with rfl | hp
      · dsimp only
        omega
      · rw [Nat.add_right_comm] at hp
        exact ih (by simpa using h) hp
    | returned outcome =>
      cases n with
      | zero => simp at h
      | succ n =>
        simp only [levels, List.mem_cons, Nat.succ_add, Nat.add_sub_cancel,
          Nat.succ_eq_add_one] at hp
        rcases hp with rfl | hp
        · dsimp only
          omega
        · exact ih (by simpa using h) hp
    | _ =>
      rw [closes_cons rfl] at h
      rw [levels_cons rfl, List.mem_cons] at hp
      rcases hp with rfl | hp
      · exact Nat.le_add_left ..
      · exact ih h hp

theorem map_levels (n : Nat) (trace : Trace) : (levels n trace).map Prod.snd = trace := by
  induction trace generalizing n with
  | nil => rfl
  | cons e trace ih => cases e <;> simp [levels, ih]

theorem Balanced.nil : Balanced [] := rfl

theorem Balanced.append {a b : Trace} (ha : a.Balanced) (hb : b.Balanced) :
    Balanced (a ++ b) := by
  have h := closes_append ha 0 b
  rw [Nat.add_zero] at h
  exact h.trans hb

theorem Flat.balanced {trace : Trace} (h : trace.Flat) : trace.Balanced := by
  induction trace with
  | nil => rfl
  | cons e trace ih =>
    rw [Flat, List.forall_mem_cons] at h
    exact (closes_cons h.1 0 trace).trans (ih h.2)

theorem Balanced.whole {passed : Trace} (h : passed.Balanced) (operation : Operation)
    (outcome : Outcome) : Balanced (.called operation :: (passed ++ [.returned outcome])) := by
  rw [Balanced, closes_called, ← Nat.zero_add (0 + 1), closes_append h]
  rfl

theorem own_append {a : Trace} (ha : a.Balanced) (b : Trace) : own (a ++ b) = own a ++ own b := by
  have h := levels_append ha 0 b
  rw [Nat.add_zero] at h
  simp only [own, h, List.filter_append, List.map_append]

theorem levels_of_flat {trace : Trace} (h : trace.Flat) (n : Nat) :
    levels n trace = trace.map fun e => (n, e) := by
  induction trace with
  | nil => rfl
  | cons e trace ih =>
    rw [Flat, List.forall_mem_cons] at h
    rw [levels_cons h.1, ih h.2, List.map_cons]

theorem Flat.own_eq {trace : Trace} (h : trace.Flat) : trace.own = trace := by
  simp [own, levels_of_flat h, List.filter_map, Function.comp_def]

theorem Flat.singleton {e : Effect} (h : e.isFlat = true) : Flat [e] :=
  List.forall_mem_singleton.2 h

theorem Flat.append {a b : Trace} (ha : a.Flat) (hb : b.Flat) : Flat (a ++ b) :=
  List.forall_mem_append.2 ⟨ha, hb⟩

theorem Balanced.append_flat {a b : Trace} (ha : a.Balanced) (hb : b.Flat) : Balanced (a ++ b) :=
  ha.append hb.balanced

theorem own_append_flat {a b : Trace} (ha : a.Balanced) (hb : b.Flat) :
    own (a ++ b) = own a ++ b := by
  rw [own_append ha, hb.own_eq]

theorem level_whole {passed : Trace} (h : passed.Balanced) (operation : Operation)
    (outcome : Outcome) {p : Nat × Effect}
    (hp : p ∈ levels 0 (.called operation :: (passed ++ [.returned outcome]))) : p.1 ≠ 0 := by
  have happend := levels_append h 1 [.returned outcome]
  rw [Nat.zero_add] at happend
  rw [levels, happend, List.mem_cons, List.mem_append] at hp
  rcases hp with rfl | hp | hp
  · exact Nat.one_ne_zero
  · have := le_of_mem_levels (k := 1) h hp
    omega
  · cases List.mem_singleton.1 hp
    exact Nat.one_ne_zero

theorem own_whole {passed : Trace} (h : passed.Balanced) (operation : Operation)
    (outcome : Outcome) : own (.called operation :: (passed ++ [.returned outcome])) = [] := by
  rw [own, List.map_eq_nil_iff, List.filter_eq_nil_iff]
  intro p hp
  simpa using level_whole h operation outcome hp

theorem own_append_whole {a passed : Trace} (ha : a.Balanced) (h : passed.Balanced)
    (operation : Operation) (outcome : Outcome) :
    own (a ++ .called operation :: (passed ++ [.returned outcome])) = own a := by
  rw [own_append ha, own_whole h, List.append_nil]

theorem own_append_nested_perm (trace : Trace) : (trace.own ++ trace.nested).Perm trace := by
  have h := (List.filter_append_perm (·.1 == 0) (levels 0 trace)).map Prod.snd
  rwa [List.map_append, map_levels] at h

theorem InCharge.append {trace seen : Trace} {operation : Operation}
    (charge : trace.InCharge operation) (balanced : seen.Balanced) :
    InCharge (trace ++ seen) operation := by
  obtain ⟨before, passed, rfl, hpassed⟩ := charge
  exact ⟨before, passed ++ seen, by rw [List.append_assoc]; rfl, hpassed.append balanced⟩

theorem levels_ne_zero {trace : Trace} (inside : trace.own = []) :
    ∀ p ∈ levels 0 trace, p.1 ≠ 0 := by
  intro p hp
  have hown := List.map_eq_nil_iff.1 inside
  simpa using List.filter_eq_nil_iff.1 hown p hp

theorem closes_unclosed (n : Nat) (before : Trace) (operation : Operation) {passed : Trace}
    (h : passed.Balanced) : closes n (before ++ .called operation :: passed) = false := by
  induction before generalizing n with
  | nil =>
    have hpassed := closes_append h (n + 1) []
    rw [List.append_nil, Nat.zero_add] at hpassed
    simp [hpassed]
  | cons e before ih =>
    cases e with
    | called operation => simpa using ih (n + 1)
    | returned outcome =>
      cases n with
      | zero => simp
      | succ n => simpa using ih n
    | _ => rw [List.cons_append, closes_cons rfl, ih]

theorem called_inj_of_cons {before passed passed' : Trace} {operation operation' : Operation}
    (h : .called operation :: passed = before ++ .called operation' :: passed')
    (hpassed : passed.Balanced) (hpassed' : passed'.Balanced) :
    before = [] ∧ operation = operation' ∧ passed = passed' := by
  cases before with
  | nil =>
    cases h
    exact ⟨rfl, rfl, rfl⟩
  | cons e before =>
    rw [List.cons_append] at h
    injection h with _ hrest
    rw [Balanced, hrest, closes_unclosed 0 before operation' hpassed'] at hpassed
    cases hpassed

/-- There is one innermost operation in progress. -/
theorem called_inj {before before' passed passed' : Trace} {operation operation' : Operation}
    (h : before ++ .called operation :: passed = before' ++ .called operation' :: passed')
    (hpassed : passed.Balanced) (hpassed' : passed'.Balanced) :
    before = before' ∧ operation = operation' ∧ passed = passed' := by
  rcases List.append_eq_append_iff.1 h with ⟨c, hc, h⟩ | ⟨c, hc, h⟩
  · obtain ⟨rfl, hoperation, heq⟩ := called_inj_of_cons h hpassed hpassed'
    exact ⟨by simpa using hc.symm, hoperation, heq⟩
  · obtain ⟨rfl, hoperation, heq⟩ := called_inj_of_cons h hpassed' hpassed
    exact ⟨by simpa using hc, hoperation.symm, heq.symm⟩

end Trace

end ScriptEvents
