import KvOffload.EventRuns
import Mathlib.Logic.Function.Basic

/-!
# Processes over a shared store

Numbered processes, each in a phase of its own, take steps on a store that they share. What
one process knows of the store survives the steps of the others as long as no other may touch
what it relies on. Where a step always lowers the measure of its process, all runs end.
-/

namespace KvOffload.SharedProcesses

set_option autoImplicit false

variable {Phase Shared Call Problem : Type}

structure Processes (Phase Shared : Type) where
  phases : Nat → Phase
  shared : Shared

/-- A call of one process, and what becomes of it and of the store. -/
abbrev Act (Phase Shared Call Problem : Type) :=
  Shared → Phase → Call → Except Problem (Phase × Shared)

namespace Processes

def apply (act : Act Phase Shared Call Problem) (system : Processes Phase Shared)
    (event : Nat × Call) : Except Problem (Processes Phase Shared) :=
  (act system.shared (system.phases event.1) event.2).map fun result =>
    ⟨Function.update system.phases event.1 result.1, result.2⟩

/-- There are `count` processes. -/
def Permitted (count : Nat) (_ : Processes Phase Shared) (event : Nat × Call) : Prop :=
  event.1 < count

instance (count : Nat) (system : Processes Phase Shared) (event : Nat × Call) :
    Decidable (system.Permitted count event) :=
  inferInstanceAs (Decidable (_ < _))

end Processes

variable {act : Act Phase Shared Call Problem} {count : Nat}
  {system after : Processes Phase Shared}

theorem apply_eq_ok {event : Nat × Call} (applied : system.apply act event = .ok after) :
    ∃ phase shared, act system.shared (system.phases event.1) event.2 = .ok (phase, shared) ∧
      after = ⟨Function.update system.phases event.1 phase, shared⟩ := by
  unfold Processes.apply at applied
  cases acted : act system.shared (system.phases event.1) event.2 with
  | error problem =>
      rw [acted] at applied
      cases applied
  | ok result =>
      rw [acted] at applied
      cases applied
      exact ⟨result.1, result.2, rfl, rfl⟩

/-- What holds of the store, of each process and between any two of them. -/
structure Together (Stored : Shared → Prop) (Knows : Shared → Phase → Prop)
    (Apart : Phase → Phase → Prop) (system : Processes Phase Shared) : Prop where
  stored : Stored system.shared
  knows : ∀ process, Knows system.shared (system.phases process)
  apart : ∀ process other, process ≠ other →
    Apart (system.phases process) (system.phases other)

/-- A step keeps what its process needs, and leaves the others what they know. -/
structure Guarantee (act : Act Phase Shared Call Problem) (Stored : Shared → Prop)
    (Knows : Shared → Phase → Prop) (Apart : Phase → Phase → Prop) : Prop where
  symm : ∀ phase other, Apart phase other → Apart other phase
  own : ∀ shared phase call later next, Stored shared → Knows shared phase →
    act shared phase call = .ok (later, next) → Stored next ∧ Knows next later
  others : ∀ shared phase call later next, Stored shared → Knows shared phase →
    act shared phase call = .ok (later, next) → ∀ other, Knows shared other →
      Apart phase other → Knows next other ∧ Apart later other

variable {Stored : Shared → Prop} {Knows : Shared → Phase → Prop} {Apart : Phase → Phase → Prop}

theorem together_step (guarantee : Guarantee act Stored Knows Apart)
    (together : Together Stored Knows Apart system) {event : Nat × Call}
    (applied : system.apply act event = .ok after) : Together Stored Knows Apart after := by
  obtain ⟨mover, call⟩ := event
  obtain ⟨phase, shared, acted, rfl⟩ := apply_eq_ok applied
  obtain ⟨stored, own⟩ := guarantee.own _ _ _ _ _ together.stored (together.knows mover) acted
  have others := fun other (different : mover ≠ other) =>
    guarantee.others _ _ _ _ _ together.stored (together.knows mover) acted
      (system.phases other) (together.knows other) (together.apart mover other different)
  refine ⟨stored, fun process => ?_, fun process other different => ?_⟩
  · show Knows shared (Function.update system.phases mover phase process)
    rw [Function.update_apply]
    split
    · exact own
    · rename_i rests
      exact (others process (Ne.symm rests)).1
  · show Apart (Function.update system.phases mover phase process)
      (Function.update system.phases mover phase other)
    rw [Function.update_apply, Function.update_apply]
    split
    · rename_i moves
      rw [if_neg (moves ▸ different.symm)]
      exact (others other (moves ▸ different)).2
    · rename_i rests
      split
      · exact guarantee.symm _ _ (others process (Ne.symm rests)).2
      · exact together.apart process other different

theorem together_reaches (guarantee : Guarantee act Stored Knows Apart)
    {permitted : Processes Phase Shared → Nat × Call → Prop} {start : Processes Phase Shared}
    (together : Together Stored Knows Apart start)
    (reaches : EventRuns.Reaches (Processes.apply act) permitted start system) :
    Together Stored Knows Apart system :=
  EventRuns.reaches_invariant (fun _ _ _ before _ applied => together_step guarantee before applied)
    together reaches

section Measures

variable {left : Phase → Nat}

/-- A process takes no more steps in a run than it has left to do. -/
theorem count_add_left
    {permitted : Processes Phase Shared → Nat × Call → Prop}
    [∀ system event, Decidable (permitted system event)]
    (lowers : ∀ shared phase call later next, act shared phase call = .ok (later, next) →
      left later < left phase)
    (process : Nat) (events : List (Nat × Call)) {system last : Processes Phase Shared}
    (replayed : EventRuns.replay (Processes.apply act) permitted system events = some last) :
    (events.map Prod.fst).count process + left (last.phases process) ≤
      left (system.phases process) := by
  induction events generalizing system with
  | nil =>
      cases replayed
      exact Nat.le_of_eq (Nat.zero_add _)
  | cons event rest ih =>
      unfold EventRuns.replay at replayed
      split at replayed
      · cases applied : system.apply act event with
        | error problem => simp [applied] at replayed
        | ok after =>
            simp only [applied] at replayed
            obtain ⟨phase, shared, acted, rfl⟩ := apply_eq_ok applied
            have lower := lowers _ _ _ _ _ acted
            have bound := ih replayed
            dsimp only at bound
            rw [List.map_cons, List.count_cons]
            by_cases own : event.1 = process
            · rw [own] at bound lower
              rw [Function.update_self] at bound
              rw [if_pos (beq_iff_eq.mpr own)]
              omega
            · rw [Function.update_of_ne (Ne.symm own)] at bound
              rw [if_neg (by simpa using own)]
              exact bound
      · cases replayed

end Measures

end KvOffload.SharedProcesses
