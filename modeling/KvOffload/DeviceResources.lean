import Mathlib.Data.Finset.Card
import Mathlib.Data.List.Perm.Basic
import Mathlib.Data.List.Range
import Mathlib.Logic.Function.Basic

/-!
# Records of a device and reusable resources

Work given to a device leaves records, and an event stands for the last record made of it. A
record completes only after the one it waits for. Where each record waits for the one before,
or that one is done already, records complete in the order they were made.

Resources are numbered as they are created. One that is given back is taken again before a new
one is created.
-/

namespace KvOffload.DeviceResources

set_option autoImplicit false

variable {Event : Type} [DecidableEq Event]

structure Device (Event : Type) where
  records : Nat := 0
  waits : Nat → Option Nat := fun _ => none
  latest : Event → Option Nat := fun _ => none
  done : Finset Nat := ∅

namespace Device

variable (device : Device Event)

/-- An event that was never recorded counts as complete. -/
def query (event : Event) : Bool :=
  match device.latest event with
  | none => true
  | some record => decide (record ∈ device.done)

def record (event : Event) (wait : Option Nat) : Device Event :=
  { device with
    records := device.records + 1
    waits := Function.update device.waits device.records wait
    latest := Function.update device.latest event (some device.records) }

omit [DecidableEq Event] in
/-- The device may complete the record next. -/
def Ready (record : Nat) : Prop :=
  record < device.records ∧ record ∉ device.done ∧
    ∀ earlier ∈ device.waits record, earlier ∈ device.done

def complete (record : Nat) : Device Event := { device with done := insert record device.done }

end Device

instance (device : Device Event) (record : Nat) : Decidable (device.Ready record) :=
  inferInstanceAs (Decidable (_ ∧ _ ∧ ∀ earlier ∈ _, _ ∈ _))

/-- The records that are done are the first ones, and each other one waits for the one before
it unless that is done. None waits for a later one. -/
structure InOrder (device : Device Event) : Prop where
  first : device.done = Finset.range device.done.card
  bounded : device.done.card ≤ device.records
  backward : ∀ record earlier, record < device.records →
    device.waits record = some earlier → earlier < record
  chained : ∀ record, record + 1 < device.records →
    device.waits (record + 1) = some record ∨ record ∈ device.done

section Order

variable {device : Device Event}

omit [DecidableEq Event] in
theorem start_in_order : InOrder ({} : Device Event) :=
  ⟨rfl, le_rfl, fun _ _ below _ => absurd below (Nat.not_lt_zero _),
    fun _ below => absurd below (Nat.not_lt_zero _)⟩

omit [DecidableEq Event] in
theorem mem_done_iff (order : InOrder device) (record : Nat) :
    record ∈ device.done ↔ record < device.done.card := by
  conv_lhs => rw [order.first]
  exact Finset.mem_range

omit [DecidableEq Event] in
/-- Only the first record that is not done may complete. -/
theorem ready_eq (order : InOrder device) {record : Nat} (ready : device.Ready record) :
    record = device.done.card := by
  obtain ⟨below, unfinished, released⟩ := ready
  have late := Nat.le_of_not_lt (mt (mem_done_iff order record).mpr unfinished)
  cases record with
  | zero => exact (Nat.le_zero.mp late).symm
  | succ earlier =>
      have earlierDone : earlier ∈ device.done := by
        rcases order.chained earlier below with waits | done
        · exact released earlier waits
        · exact done
      exact le_antisymm ((mem_done_iff order earlier).mp earlierDone) late

omit [DecidableEq Event] in
/-- As long as something is not done, the device can go on. -/
theorem next_ready (order : InOrder device)
    (unfinished : device.done.card < device.records) : device.Ready device.done.card := by
  refine ⟨unfinished, fun done => ?_, fun earlier isEarlier => ?_⟩
  · exact absurd ((mem_done_iff order _).mp done) (lt_irrefl _)
  · exact (mem_done_iff order earlier).mpr (order.backward _ _ unfinished isEarlier)

omit [DecidableEq Event] in
theorem complete_in_order (order : InOrder device) {record : Nat} (ready : device.Ready record) :
    InOrder (device.complete record) ∧
      (device.complete record).done.card = device.done.card + 1 := by
  have same := ready_eq order ready
  subst same
  have grown : (device.complete device.done.card).done.card = device.done.card + 1 :=
    Finset.card_insert_of_notMem ready.2.1
  refine ⟨⟨?_, ?_, order.backward, ?_⟩, grown⟩
  · rw [grown, Finset.range_add_one, ← order.first]
    rfl
  · rw [grown]
    exact ready.1
  · intro record below
    rcases order.chained record below with waits | done
    · exact .inl waits
    · exact .inr (Finset.mem_insert_of_mem done)

/-- A new record keeps the order when it waits for the last one or all others are done. -/
theorem record_in_order (order : InOrder device) (event : Event) {wait : Option Nat}
    (backward : ∀ earlier, wait = some earlier → earlier < device.records)
    (waits : (∀ last, last + 1 = device.records → wait = some last) ∨
      device.done.card = device.records) : InOrder (device.record event wait) := by
  refine ⟨order.first, order.bounded.trans (Nat.le_succ _), fun record earlier below waited => ?_,
    fun record below => ?_⟩
  · have waited : Function.update device.waits device.records wait record = some earlier := waited
    have below : record < device.records + 1 := below
    by_cases last : record = device.records
    · rw [last, Function.update_self] at waited
      rw [last]
      exact backward earlier waited
    · rw [Function.update_of_ne last] at waited
      exact order.backward record earlier (by omega) waited
  show Function.update device.waits device.records wait (record + 1) = some record ∨ _
  by_cases last : record + 1 = device.records
  · rw [last, Function.update_self]
    rcases waits with waits | all
    · exact .inl (waits record last)
    · apply Or.inr
      rw [← all] at last
      exact (mem_done_iff order record).mpr (by omega)
  · rw [Function.update_of_ne last]
    have below : record + 1 < device.records + 1 := below
    exact order.chained record (by omega)

omit [DecidableEq Event] in
theorem query_of_latest {event : Event} {record : Nat}
    (latest : device.latest event = some record) :
    device.query event = true ↔ record ∈ device.done := by
  rw [Device.query, latest]
  exact decide_eq_true_iff

theorem latest_record (event other : Event) (wait : Option Nat) :
    (device.record event wait).latest other =
      if other = event then some device.records else device.latest other :=
  Function.update_apply ..

end Order

/-- The resources that are free, and how many there are. -/
structure Pool where
  free : List Nat := []
  created : Nat := 0
  deriving DecidableEq

namespace Pool

/-- The one that was given back last, or a new one. -/
def take (pool : Pool) : Nat × Pool :=
  match pool.free.getLast? with
  | some resource => (resource, { pool with free := pool.free.dropLast })
  | none => (pool.created, { pool with created := pool.created + 1 })

def give (pool : Pool) (resource : Nat) : Pool := { pool with free := pool.free ++ [resource] }

/-- Every resource is free or held, and by one holder. -/
def Holds (pool : Pool) (held : List Nat) : Prop :=
  (held ++ pool.free).Perm (List.range pool.created)

end Pool

section Pools

variable {pool : Pool} {held : List Nat}

theorem holds_start : ({} : Pool).Holds [] := List.Perm.refl _

theorem held_nodup (holds : pool.Holds held) : held.Nodup :=
  (holds.nodup_iff.mpr List.nodup_range).of_append_left

theorem holds_perm (holds : pool.Holds held) {other : List Nat} (same : other.Perm held) :
    pool.Holds other :=
  (same.append_right pool.free).trans holds

theorem take_holds (holds : pool.Holds held) : pool.take.2.Holds (pool.take.1 :: held) := by
  unfold Pool.take
  cases last : pool.free.getLast? with
  | some resource =>
      have split := List.dropLast_append_getLast? resource last
      have holds : (held ++ pool.free).Perm (List.range pool.created) := holds
      rw [← split, ← List.append_assoc] at holds
      exact (List.perm_append_singleton resource _).symm.trans holds
  | none =>
      have none := List.getLast?_eq_none_iff.mp last
      show (pool.created :: held ++ pool.free).Perm (List.range (pool.created + 1))
      rw [List.range_succ]
      exact (List.perm_append_singleton pool.created _).symm.trans (holds.append_right _)

/-- What is taken was held by nobody. -/
theorem take_fresh (holds : pool.Holds held) : pool.take.1 ∉ held :=
  (List.nodup_cons.mp (held_nodup (take_holds holds))).1

theorem give_holds {resource : Nat} (holds : pool.Holds (resource :: held)) :
    (pool.give resource).Holds held := by
  show (held ++ (pool.free ++ [resource])).Perm (List.range pool.created)
  rw [← List.append_assoc]
  exact (List.perm_append_singleton resource _).trans holds

/-- A new resource is created only when all others are held. -/
theorem take_created_le (holds : pool.Holds held) :
    pool.take.2.created ≤ max pool.created (held.length + 1) := by
  unfold Pool.take
  cases last : pool.free.getLast? with
  | some resource => exact le_max_left _ _
  | none =>
      have none := List.getLast?_eq_none_iff.mp last
      have counted := holds.length_eq
      rw [none, List.append_nil, List.length_range] at counted
      exact (le_of_eq (congrArg (· + 1) counted.symm)).trans (le_max_right _ _)

end Pools

end KvOffload.DeviceResources
