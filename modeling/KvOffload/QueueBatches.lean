import Mathlib.Data.List.DropRight

/-!
# Batches from a queue

A state gives up its items in an order of its own, and some tidying follows every batch.
When one item leaves the order of the others alone, and tidying in between is not seen
after the last tidying, a batch is the same as its items taken one by one.
-/

namespace KvOffload.QueueBatches

set_option autoImplicit false

structure Queue (State Item : Type) where
  order : State → List Item
  drop : State → Item → State
  finish : State → State
  Inv : State → Prop
  inv_step : ∀ {state : State} {item : Item} {rest : List Item}, Inv state →
    order state = item :: rest → Inv (finish (drop state item))
  order_step : ∀ {state : State} {item : Item} {rest : List Item}, Inv state →
    order state = item :: rest → order (finish (drop state item)) = rest
  finish_once : ∀ {state : State} {item : Item} {taken left : List Item}, Inv state →
    order state = item :: (taken ++ left) →
      finish (taken.foldl drop (finish (drop state item))) =
        finish (taken.foldl drop (drop state item))

namespace Queue

variable {State Item : Type} (queue : Queue State Item)

/-- The first `count` items and the state without them, if there are as many. -/
def batch (count : Nat) (state : State) : Option (List Item × State) :=
  if count = 0 then some ([], state)
  else if (queue.order state).length < count then none
  else
    let taken := (queue.order state).take count
    some (taken, queue.finish (taken.foldl queue.drop state))

def successive : Nat → State → Option (List Item × State)
  | 0, state => some ([], state)
  | count + 1, state => do
      let (first, state) ← queue.batch 1 state
      let (rest, state) ← successive count state
      some (first ++ rest, state)

theorem batch_of_empty {state : State} (empty : queue.order state = []) (count : Nat) :
    queue.batch (count + 1) state = none := by
  simp [batch, empty]

theorem batch_one {state : State} {item : Item} {rest : List Item}
    (order : queue.order state = item :: rest) :
    queue.batch 1 state = some ([item], queue.finish (queue.drop state item)) := by
  simp [batch, order]

/-- The first item of a batch leaves a batch of one less. -/
theorem batch_succ {state : State} {item : Item} {rest : List Item} (inv : queue.Inv state)
    (order : queue.order state = item :: rest) (count : Nat) :
    queue.batch (count + 1) state =
      (queue.batch count (queue.finish (queue.drop state item))).map
        fun later => (item :: later.1, later.2) := by
  have after := queue.order_step inv order
  cases count with
  | zero => simp [batch, order]
  | succ count =>
      by_cases short : rest.length < count + 1
      · have shorter : rest.length + 1 < count + 1 + 1 := by omega
        rw [batch, batch, order, after, List.length_cons, if_neg (by omega), if_pos shorter,
          if_neg (by omega), if_pos short, Option.map_none]
      · have split : queue.order state =
            item :: (rest.take (count + 1) ++ rest.drop (count + 1)) := by
          rw [order, List.take_append_drop]
        have once := queue.finish_once inv split
        have longer : ¬ rest.length + 1 < count + 1 + 1 := by omega
        rw [batch, batch, order, after, List.length_cons, if_neg (by omega), if_neg longer,
          if_neg (by omega), if_neg short, Option.map_some, List.take_succ_cons]
        simp only [List.foldl_cons, once]

theorem batch_eq_successive {state : State} (inv : queue.Inv state) (count : Nat) :
    queue.batch count state = queue.successive count state := by
  induction count generalizing state with
  | zero => simp [batch, successive]
  | succ count ih =>
      cases order : queue.order state with
      | nil => simp [successive, queue.batch_of_empty order]
      | cons item rest =>
          rw [queue.batch_succ inv order, successive, queue.batch_one order,
            ih (queue.inv_step inv order)]
          simp only [Option.bind_eq_bind, Option.bind_some]
          cases queue.successive count (queue.finish (queue.drop state item)) with
          | none => rfl
          | some later => rfl

end Queue

/-- Cutting a list to its last items once in between is not seen at the end. -/
theorem rtake_rtake_append {α : Type} (capacity : Nat) (items added : List α) :
    (items.rtake capacity ++ added).rtake capacity = (items ++ added).rtake capacity := by
  simp only [List.rtake_eq_reverse_take_reverse, List.reverse_append, List.reverse_reverse,
    List.take_append, List.length_reverse, List.take_take]
  congr 3
  omega

end KvOffload.QueueBatches
