import Mathlib.Logic.Relation

/-!
# Runs of a system with events

A system answers an event with its next state or with an error. A run takes
permitted events that do not fail, in any order. Replaying a list of events is
the computable form of a run.
-/

namespace KvOffload.EventRuns

set_option autoImplicit false

variable {State Event Problem : Type}

def Step (apply : State → Event → Except Problem State) (permitted : State → Event → Prop)
    (before after : State) : Prop :=
  ∃ event, permitted before event ∧ apply before event = .ok after

def Reaches (apply : State → Event → Except Problem State) (permitted : State → Event → Prop) :
    State → State → Prop :=
  Relation.ReflTransGen (Step apply permitted)

variable {apply : State → Event → Except Problem State} {permitted : State → Event → Prop}

/-- A run with its steps: the state before, the event and the state after. -/
inductive Ran (apply : State → Event → Except Problem State) (permitted : State → Event → Prop)
    (start : State) : List (State × Event × State) → State → Prop where
  | start : Ran apply permitted start [] start
  | step {steps : List (State × Event × State)} {before after : State} {event : Event}
      (ran : Ran apply permitted start steps before) (allowed : permitted before event)
      (applied : apply before event = .ok after) :
      Ran apply permitted start (steps ++ [(before, event, after)]) after

theorem reaches_ran {start state : State} (reaches : Reaches apply permitted start state) :
    ∃ steps, Ran apply permitted start steps state := by
  induction reaches with
  | refl => exact ⟨[], .start⟩
  | tail _ step ih =>
      obtain ⟨steps, ran⟩ := ih
      obtain ⟨event, allowed, applied⟩ := step
      exact ⟨_, ran.step allowed applied⟩

/-- What every permitted event guarantees of its step holds of every step of a run. -/
theorem ran_rule {Guaranteed : State → Event → State → Prop}
    (guarantees : ∀ before event after, permitted before event →
      apply before event = .ok after → Guaranteed before event after)
    {start state : State} {steps : List (State × Event × State)}
    (ran : Ran apply permitted start steps state) :
    ∀ step ∈ steps, Guaranteed step.1 step.2.1 step.2.2 := by
  induction ran with
  | start => simp
  | step ran allowed applied ih =>
      intro step member
      rcases List.mem_append.mp member with earlier | last
      · exact ih step earlier
      · obtain rfl := List.mem_singleton.mp last
        exact guarantees _ _ _ allowed applied

/-- What every permitted event preserves holds in every reachable state. -/
theorem reaches_invariant {Invariant : State → Prop} {start state : State}
    (preserved : ∀ before event after, Invariant before → permitted before event →
      apply before event = .ok after → Invariant after)
    (initial : Invariant start) (reaches : Reaches apply permitted start state) :
    Invariant state := by
  induction reaches with
  | refl => exact initial
  | tail _ step ih =>
      obtain ⟨event, allowed, applied⟩ := step
      exact preserved _ event _ ih allowed applied

/-- A run seen through a projection is a run of the projected system. -/
theorem reaches_project {Seen SeenEvent SeenProblem : Type}
    {applySeen : Seen → SeenEvent → Except SeenProblem Seen}
    {permittedSeen : Seen → SeenEvent → Prop} (project : State → Seen) {start state : State}
    (seen : ∀ before event after, permitted before event → apply before event = .ok after →
      Step applySeen permittedSeen (project before) (project after))
    (reaches : Reaches apply permitted start state) :
    Reaches applySeen permittedSeen (project start) (project state) := by
  induction reaches with
  | refl => exact .refl
  | tail _ step ih =>
      obtain ⟨event, allowed, applied⟩ := step
      exact ih.tail (seen _ event _ allowed applied)

variable [∀ state event, Decidable (permitted state event)]

def replay (apply : State → Event → Except Problem State) (permitted : State → Event → Prop)
    [∀ state event, Decidable (permitted state event)] (state : State) :
    List Event → Option State
  | [] => some state
  | event :: rest =>
      if permitted state event then
        match apply state event with
        | .ok after => replay apply permitted after rest
        | .error _ => none
      else none

theorem replay_reaches (events : List Event) {state last : State}
    (replayed : replay apply permitted state events = some last) :
    Reaches apply permitted state last := by
  induction events generalizing state with
  | nil =>
      cases replayed
      exact .refl
  | cons event rest ih =>
      unfold replay at replayed
      split at replayed
      · rename_i allowed
        cases applied : apply state event with
        | error problem => simp [applied] at replayed
        | ok after =>
            simp only [applied] at replayed
            exact .head ⟨event, allowed, applied⟩ (ih replayed)
      · cases replayed

/-- A replay whose last state shows a value gives a reachable state that shows it. -/
theorem exists_of_replay {Seen : Type} {start : State} {events : List Event}
    {observe : State → Seen} {seen : Seen}
    (replayed : (replay apply permitted start events).map observe = some seen) :
    ∃ state, Reaches apply permitted start state ∧ observe state = seen := by
  obtain ⟨state, last, same⟩ := Option.map_eq_some_iff.mp replayed
  exact ⟨state, replay_reaches events last, same⟩

end KvOffload.EventRuns
