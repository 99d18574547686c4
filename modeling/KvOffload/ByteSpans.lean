import Mathlib.Tactic

/-!
# Spans of bytes

Ranges of addresses, what it is for one to lie in another and for two to share no byte,
and the cells of a grid. Two spans are kept apart by the outermost spans around them that
are apart, so that a nested layout is settled one level at a time. Areas of given sizes
are carved one after the other.
-/

namespace KvOffload.ByteSpans

set_option autoImplicit false

structure Span where
  start : Nat
  size : Nat
  deriving DecidableEq, Repr

namespace Span

def stop (span : Span) : Nat := span.start + span.size

def Holds (span : Span) (byte : Nat) : Prop := span.start ≤ byte ∧ byte < span.stop

def Within (inner outer : Span) : Prop := outer.start ≤ inner.start ∧ inner.stop ≤ outer.stop

def Apart (first second : Span) : Prop := ∀ byte, first.Holds byte → ¬ second.Holds byte

variable {first second inner middle outer : Span}

theorem Within.holds (within : inner.Within outer) {byte : Nat} (holds : inner.Holds byte) :
    outer.Holds byte :=
  ⟨within.1.trans holds.1, holds.2.trans_le within.2⟩

theorem Within.trans (lower : inner.Within middle) (upper : middle.Within outer) :
    inner.Within outer :=
  ⟨upper.1.trans lower.1, lower.2.trans upper.2⟩

theorem Apart.symm (apart : first.Apart second) : second.Apart first := by
  intro byte inSecond inFirst
  exact apart byte inFirst inSecond

theorem Apart.of_stop_le (before : first.stop ≤ second.start) : first.Apart second := by
  intro byte inFirst inSecond
  exact absurd (inFirst.2.trans_le before) (Nat.not_lt.mpr inSecond.1)

/-- What lies in spans that are apart is apart. -/
theorem Apart.within {firstOuter secondOuter : Span} (apart : firstOuter.Apart secondOuter)
    (firstIn : first.Within firstOuter) (secondIn : second.Within secondOuter) :
    first.Apart second := by
  intro byte inFirst inSecond
  exact apart byte (firstIn.holds inFirst) (secondIn.holds inSecond)

/-- A span that starts another one and is not longer lies in it. -/
theorem within_of_short (start : Nat) {size outerSize : Nat} (short : size ≤ outerSize) :
    (Span.mk start size).Within ⟨start, outerSize⟩ :=
  ⟨le_rfl, Nat.add_le_add_left short start⟩

end Span

/-- The cell with number `index` of a grid of cells of `pitch` bytes. -/
def cell (base pitch index : Nat) : Span := ⟨base + index * pitch, pitch⟩

theorem cell_stop (base pitch index : Nat) : (cell base pitch index).stop =
    base + (index + 1) * pitch := by
  simp only [cell, Span.stop]
  rw [Nat.succ_mul, Nat.add_assoc]

theorem cell_within (base pitch : Nat) {index count size : Nat} (valid : index < count)
    (room : count * pitch ≤ size) : (cell base pitch index).Within ⟨base, size⟩ := by
  have last : (index + 1) * pitch ≤ count * pitch := Nat.mul_le_mul_right pitch valid
  constructor
  · exact Nat.le_add_right base _
  · rw [cell_stop]
    exact Nat.add_le_add_left (last.trans room) base

theorem cells_apart (base pitch : Nat) {first second : Nat} (differ : first ≠ second) :
    (cell base pitch first).Apart (cell base pitch second) := by
  have ordered : ∀ {lower upper : Nat}, lower < upper →
      (cell base pitch lower).Apart (cell base pitch upper) := by
    intro lower upper less
    apply Span.Apart.of_stop_le
    rw [cell_stop]
    exact Nat.add_le_add_left (Nat.mul_le_mul_right pitch less) base
  rcases Nat.lt_or_gt_of_ne differ with less | greater
  · exact ordered less
  · exact (ordered greater).symm

/-- The bytes before an area of a list of areas. -/
def carvedBytes (sizes : List Nat) (index : Nat) : Nat := (sizes.take index).sum

@[simp] theorem carved_bytes_cons (size : Nat) (sizes : List Nat) (index : Nat) :
    carvedBytes (size :: sizes) (index + 1) = size + carvedBytes sizes index := by
  simp [carvedBytes]

theorem carved_bytes_add_le {sizes : List Nat} {first second size : Nat}
    (found : sizes[first]? = some size) (less : first < second) :
    carvedBytes sizes first + size ≤ carvedBytes sizes second := by
  induction sizes generalizing first second with
  | nil => cases found
  | cons head rest ih =>
      obtain ⟨later, rfl⟩ : ∃ later, second = later + 1 := ⟨second - 1, by omega⟩
      cases first with
      | zero =>
          cases found
          simp [carvedBytes]
      | succ earlier =>
          have rests := ih (found : rest[earlier]? = some size) (Nat.lt_of_succ_lt_succ less)
          rw [carved_bytes_cons, carved_bytes_cons]
          omega

theorem areas_apart (base : Nat) {sizes : List Nat} {first second firstSize secondSize : Nat}
    (firstFound : sizes[first]? = some firstSize) (secondFound : sizes[second]? = some secondSize)
    (differ : first ≠ second) :
    (Span.mk (base + carvedBytes sizes first) firstSize).Apart
      ⟨base + carvedBytes sizes second, secondSize⟩ := by
  have ordered : ∀ {lower upper lowerSize upperSize : Nat}, sizes[lower]? = some lowerSize →
      lower < upper → (Span.mk (base + carvedBytes sizes lower) lowerSize).Apart
        ⟨base + carvedBytes sizes upper, upperSize⟩ := by
    intro lower upper lowerSize upperSize found less
    apply Span.Apart.of_stop_le
    have ends := carved_bytes_add_le found less
    simp only [Span.stop]
    omega
  rcases Nat.lt_or_gt_of_ne differ with less | greater
  · exact ordered firstFound less
  · exact (ordered secondFound greater).symm

end KvOffload.ByteSpans
