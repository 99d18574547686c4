import KvOffload.ByteSpans

/-!
# Transfers between spans

What a memory holds after transfers of spans of bytes, some of which may have been made
only in part. A transfer that is repeated in full makes good what an earlier attempt has
left behind, as long as no target meets a source or another target.
-/

namespace KvOffload.SpanTransfers

open KvOffload.ByteSpans

set_option autoImplicit false

structure Transfer where
  src : Nat
  dst : Nat
  size : Nat
  deriving DecidableEq, Repr

namespace Transfer

def source (transfer : Transfer) : Span := ⟨transfer.src, transfer.size⟩

def target (transfer : Transfer) : Span := ⟨transfer.dst, transfer.size⟩

end Transfer

instance (span : Span) (byte : Nat) : Decidable (span.Holds byte) :=
  inferInstanceAs (Decidable (_ ∧ _))

structure Separate (transfers : List Transfer) : Prop where
  targets : transfers.Pairwise fun first second => first.target.Apart second.target
  sources : ∀ first ∈ transfers, ∀ second ∈ transfers, first.target.Apart second.source

variable {Byte : Type}

/-- Only the targets may differ. -/
def Frames (transfers : List Transfer) (before after : Nat → Byte) : Prop :=
  ∀ byte, (∀ transfer ∈ transfers, ¬transfer.target.Holds byte) → after byte = before byte

/-- The target holds the whole source. -/
def Filled (transfer : Transfer) (before after : Nat → Byte) : Prop :=
  ∀ offset < transfer.size, after (transfer.dst + offset) = before (transfer.src + offset)

structure Fills (transfers : List Transfer) (before after : Nat → Byte) : Prop where
  frames : Frames transfers before after
  filled : ∀ transfer ∈ transfers, Filled transfer before after

variable {transfers left right : List Transfer} {transfer : Transfer}
  {before middle after : Nat → Byte}

theorem frames_refl (transfers : List Transfer) (memory : Nat → Byte) :
    Frames transfers memory memory :=
  fun _ _ => rfl

theorem frames_trans (first : Frames transfers before middle)
    (second : Frames transfers middle after) : Frames transfers before after := by
  intro byte outside
  exact (second byte outside).trans (first byte outside)

theorem frames_mono (within : left ⊆ right) (frames : Frames left before after) :
    Frames right before after := by
  intro byte outside
  exact frames byte fun transfer member => outside transfer (within member)

theorem target_holds {offset : Nat} (inside : offset < transfer.size) :
    transfer.target.Holds (transfer.dst + offset) :=
  ⟨Nat.le_add_right _ _, Nat.add_lt_add_left inside _⟩

theorem source_holds {offset : Nat} (inside : offset < transfer.size) :
    transfer.source.Holds (transfer.src + offset) :=
  ⟨Nat.le_add_right _ _, Nat.add_lt_add_left inside _⟩

/-- Transfers to other targets leave a filled one filled. -/
theorem filled_frames (filled : Filled transfer before middle)
    (apart : ∀ other ∈ transfers, transfer.target.Apart other.target)
    (frames : Frames transfers middle after) : Filled transfer before after := by
  intro offset inside
  rw [← filled offset inside]
  apply frames
  intro other member
  exact apart other member _ (target_holds inside)

/-- A source that no target meets is still what it was. -/
theorem frames_filled (frames : Frames transfers before middle)
    (apart : ∀ other ∈ transfers, other.target.Apart transfer.source)
    (filled : Filled transfer middle after) : Filled transfer before after := by
  intro offset inside
  rw [filled offset inside]
  apply frames
  intro other member holds
  exact apart other member _ holds (source_holds inside)

theorem fills_nil (memory : Nat → Byte) : Fills [] memory memory :=
  ⟨frames_refl [] memory, fun _ member => by cases member⟩

/-- A full repetition makes good whatever came before. -/
theorem fills_again (separate : Separate transfers) (frames : Frames transfers before middle)
    (fills : Fills transfers middle after) : Fills transfers before after := by
  constructor
  · exact frames_trans frames fills.frames
  · intro transfer member
    apply frames_filled frames _ (fills.filled transfer member)
    intro other otherMember
    exact separate.sources other otherMember transfer member

theorem separate_left (separate : Separate (left ++ right)) : Separate left := by
  constructor
  · exact (List.pairwise_append.mp separate.targets).1
  · intro first firstMember second secondMember
    exact separate.sources first (List.mem_append_left _ firstMember) second
      (List.mem_append_left _ secondMember)

theorem separate_right (separate : Separate (left ++ right)) : Separate right := by
  constructor
  · exact (List.pairwise_append.mp separate.targets).2.1
  · intro first firstMember second secondMember
    exact separate.sources first (List.mem_append_right _ firstMember) second
      (List.mem_append_right _ secondMember)

theorem fills_append (separate : Separate (left ++ right)) (first : Fills left before middle)
    (second : Fills right middle after) : Fills (left ++ right) before after := by
  constructor
  · exact frames_trans (frames_mono (List.subset_append_left _ _) first.frames)
      (frames_mono (List.subset_append_right _ _) second.frames)
  · intro transfer member
    rcases List.mem_append.mp member with inLeft | inRight
    · apply filled_frames (first.filled transfer inLeft) _ second.frames
      intro other otherMember
      exact (List.pairwise_append.mp separate.targets).2.2 transfer inLeft other otherMember
    · apply frames_filled first.frames _ (second.filled transfer inRight)
      intro other otherMember
      exact separate.sources other (List.mem_append_left _ otherMember) transfer
        (List.mem_append_right _ inRight)

/-- The two parts of a transfer, one after the other. -/
theorem fills_parts {src dst : Nat} {first second : Nat}
    (separate : Separate [⟨src, dst, first + second⟩])
    (head : Fills [⟨src, dst, first⟩] before middle)
    (tail : Fills [⟨src + first, dst + first, second⟩] middle after) :
    Fills [⟨src, dst, first + second⟩] before after := by
  have apart := separate.sources _ (List.mem_singleton_self _) _ (List.mem_singleton_self _)
  constructor
  · intro byte outside
    have whole := outside _ (List.mem_singleton_self _)
    rw [tail.frames byte, head.frames byte]
    · intro transfer member
      obtain rfl := List.mem_singleton.mp member
      intro holds
      exact whole ⟨holds.1, holds.2.trans_le (by simp [Transfer.target, Span.stop])⟩
    · intro transfer member
      obtain rfl := List.mem_singleton.mp member
      intro holds
      have low := holds.1
      have high := holds.2
      simp only [Transfer.target, Span.stop] at low high
      exact whole ⟨by simp only [Transfer.target]; omega,
        by simp only [Transfer.target, Span.stop]; omega⟩
  · intro transfer member
    obtain rfl := List.mem_singleton.mp member
    intro offset inside
    simp only at inside ⊢
    by_cases early : offset < first
    · rw [tail.frames, head.filled _ (List.mem_singleton_self _) offset early]
      intro other otherMember
      obtain rfl := List.mem_singleton.mp otherMember
      intro holds
      have low := holds.1
      simp only [Transfer.target] at low
      omega
    · have late := tail.filled _ (List.mem_singleton_self _) (offset - first) (by simp only; omega)
      simp only [Nat.add_assoc, Nat.add_sub_cancel' (not_lt.mp early)] at late
      rw [late, head.frames]
      intro other otherMember
      obtain rfl := List.mem_singleton.mp otherMember
      intro holds
      have inSource : (Transfer.mk src dst (first + second)).source.Holds (src + offset) :=
        source_holds inside
      apply apart (src + offset) _ inSource
      exact ⟨holds.1, holds.2.trans_le (by simp [Transfer.target, Span.stop])⟩

/-- The memory after one copy. -/
def copyOver (memory : Nat → Byte) (transfer : Transfer) : Nat → Byte := fun byte =>
  if transfer.target.Holds byte then memory (transfer.src + (byte - transfer.dst))
  else memory byte

theorem copy_over_fills (transfer : Transfer) (memory : Nat → Byte) :
    Fills [transfer] memory (copyOver memory transfer) := by
  constructor
  · intro byte outside
    exact if_neg (outside transfer (List.mem_singleton_self _))
  · intro other member
    obtain rfl := List.mem_singleton.mp member
    intro offset inside
    rw [copyOver, if_pos (target_holds inside), Nat.add_sub_cancel_left]

theorem copies_fill (separate : Separate transfers) (memory : Nat → Byte) :
    Fills transfers memory (transfers.foldl copyOver memory) := by
  induction transfers generalizing memory with
  | nil => exact fills_nil memory
  | cons transfer rest ih =>
      have whole : Separate ([transfer] ++ rest) := separate
      exact fills_append whole (copy_over_fills transfer memory) (ih (separate_right whole) _)

/-- Any copies among the transfers, in any order and number. -/
theorem copies_frame (copied : List Transfer) (within : copied ⊆ transfers) (memory : Nat → Byte) :
    Frames transfers memory (copied.foldl copyOver memory) := by
  induction copied generalizing memory with
  | nil => exact frames_refl transfers memory
  | cons transfer rest ih =>
      have first : Frames transfers memory (copyOver memory transfer) :=
        frames_mono (List.cons_subset.mpr ⟨within List.mem_cons_self, List.nil_subset _⟩)
          (copy_over_fills transfer memory).frames
      exact frames_trans first (ih (fun other member => within (.tail _ member)) _)

/-- A target that was left with bytes of its own. -/
def scribble (memory left : Nat → Byte) (transfer : Transfer) : Nat → Byte := fun byte =>
  if transfer.target.Holds byte then left byte else memory byte

theorem scribble_frames (memory left : Nat → Byte) (transfer : Transfer) :
    Frames [transfer] memory (scribble memory left transfer) := by
  intro byte outside
  exact if_neg (outside transfer (List.mem_singleton_self _))

end KvOffload.SpanTransfers
