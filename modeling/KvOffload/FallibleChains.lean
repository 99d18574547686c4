import Mathlib.Logic.Relation

/-!
# Fallible operations as chains of moves

The result of an operation that may raise, seen through a projection to a state with moves: the
result leads there by a chain of moves and meets a postcondition, or the error is an excused one.
-/

namespace KvOffload.FallibleChains

set_option autoImplicit false

variable {State Problem : Type} {α β : Type}

def Leads (move : State → State → Prop) (excused : Problem → Prop) (before : State)
    (seen : α → State) (post : α → Prop) : Except Problem α → Prop
  | .ok value => Relation.ReflTransGen move before (seen value) ∧ post value
  | .error problem => excused problem

variable {move : State → State → Prop} {excused : Problem → Prop} {before : State}
  {seen : α → State} {post : α → Prop} {seenNext : β → State} {postNext : β → Prop}

theorem Leads.of_ok {result : Except Problem α} {value : α} (returned : result = .ok value)
    (moves : Relation.ReflTransGen move before (seen value)) (holds : post value) :
    Leads move excused before seen post result := by
  rw [returned]
  exact ⟨moves, holds⟩

theorem Leads.of_eq_ok {result : Except Problem α} {value : α}
    (leads : Leads move excused before seen post result) (returned : result = .ok value) :
    Relation.ReflTransGen move before (seen value) ∧ post value := by
  rw [returned] at leads
  exact leads

theorem Leads.excused_of_error {result : Except Problem α} {problem : Problem}
    (leads : Leads move excused before seen post result) (raised : result = .error problem) :
    excused problem := by
  rw [raised] at leads
  exact leads

/-- What comes after a fallible operation starts where the operation led. -/
theorem Leads.bind {first : Except Problem α} {next : α → Except Problem β}
    (leads : Leads move excused before seen post first)
    (continues : ∀ value, Relation.ReflTransGen move before (seen value) → post value →
      Leads move excused (seen value) seenNext postNext (next value)) :
    Leads move excused before seenNext postNext (first >>= next) := by
  cases first with
  | error problem => exact leads
  | ok value =>
      have after := continues value leads.1 leads.2
      show Leads move excused before seenNext postNext (next value)
      cases last : next value with
      | error problem =>
          rw [last] at after
          exact after
      | ok result =>
          rw [last] at after
          exact ⟨leads.1.trans after.1, after.2⟩

theorem Leads.after {start : State} {result : Except Problem α}
    (moves : Relation.ReflTransGen move start before)
    (leads : Leads move excused before seen post result) :
    Leads move excused start seen post result := by
  cases result with
  | error problem => exact leads
  | ok value => exact ⟨moves.trans leads.1, leads.2⟩

/-- The projection and the postcondition may be changed where the operation led. -/
theorem Leads.weaken {result : Except Problem α} {seenAfter : α → State} {postAfter : α → Prop}
    (leads : Leads move excused before seen post result)
    (same : ∀ value, Relation.ReflTransGen move before (seen value) → post value →
      Relation.ReflTransGen move (seen value) (seenAfter value) ∧ postAfter value) :
    Leads move excused before seenAfter postAfter result := by
  cases result with
  | error problem => exact leads
  | ok value =>
      obtain ⟨moves, holds⟩ := same value leads.1 leads.2
      exact ⟨leads.1.trans moves, holds⟩

end KvOffload.FallibleChains
