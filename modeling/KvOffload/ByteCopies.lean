import Mathlib.Tactic

/-!
# Copies of bytes

A batch of copies is a relation between the places it reads and the places it writes. The
memory afterwards is not tied to an order of the copies: a place that is written holds the
byte of one of its origins, any other place keeps its byte.
-/

namespace KvOffload.ByteCopies

set_option autoImplicit false

variable {Source Target Byte : Type}

structure Copied (moves : Source → Target → Prop) (source : Source → Byte)
    (before after : Target → Byte) : Prop where
  written : ∀ target, (∃ origin, moves origin target) →
    ∃ origin, moves origin target ∧ after target = source origin
  kept : ∀ target, (∀ origin, ¬ moves origin target) → after target = before target

variable {moves : Source → Target → Prop} {source : Source → Byte} {before after : Target → Byte}

/-- Some order of the copies gives some memory. -/
theorem exists_copied (moves : Source → Target → Prop) (source : Source → Byte)
    (before : Target → Byte) : ∃ after, Copied moves source before after := by
  classical
  refine ⟨fun target => if moved : ∃ origin, moves origin target then source moved.choose
    else before target, ?_, ?_⟩
  · intro target moved
    exact ⟨moved.choose, moved.choose_spec, dif_pos moved⟩
  · intro target unmoved
    exact dif_neg fun moved => unmoved moved.choose moved.choose_spec

/-- When all origins of a place agree, the order of the copies does not matter. -/
theorem Copied.holds (copied : Copied moves source before after) {origin : Source}
    {target : Target} (moved : moves origin target)
    (agree : ∀ other, moves other target → source other = source origin) :
    after target = source origin := by
  obtain ⟨other, sameTarget, held⟩ := copied.written target ⟨origin, moved⟩
  rw [held]
  exact agree other sameTarget

/-- What is copied out and back is what was there, if both ways are determined. -/
theorem Copied.round_trip {Last : Type} {back : Target → Last → Prop}
    {lastBefore lastAfter : Last → Byte} (stored : Copied moves source before after)
    (loaded : Copied back after lastBefore lastAfter) (origin : Source) {middle : Target}
    {last : Last} (out : moves origin middle) (returns : back middle last)
    (agree : ∀ other, moves other middle → source other = source origin)
    (only : ∀ other, back other last → other = middle) : lastAfter last = source origin := by
  rw [loaded.holds returns fun other moved => by rw [only other moved]]
  exact stored.holds out agree

end KvOffload.ByteCopies
