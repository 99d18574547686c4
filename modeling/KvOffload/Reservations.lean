import Mathlib.Data.Multiset.MapFold
import Mathlib.Data.Multiset.UnionInter
import Mathlib.Tactic.Common

/-!
# Slot reservations

Slots are reserved for a transfer, and later filled or dropped by key. Every
reservation has a number; a slot is sound when the reservation it was filled
under is the one it holds. A claim is a live transfer that will settle its key
without asking who holds it, and an armed key may be dropped by a timer; the
invariant keeps both away from reservations that are not theirs.
-/

namespace KvOffload.Reservations

set_option autoImplicit false

inductive Phase where
  | vacant
  | reserved
  | filled
  deriving DecidableEq, Repr

structure Slots (κ : Type) where
  phase : κ → Phase
  holder : κ → Option Nat
  next : Nat
  settled : Nat → Prop
  claims : Multiset (κ × Nat)
  armed : κ → Prop

variable {κ : Type}

/-- A filled slot was filled by the transfer it is reserved for. -/
def Slots.Sound (slots : Slots κ) : Prop :=
  ∀ key, slots.phase key = .filled → ∃ number, slots.holder key = some number ∧
    slots.settled number

def Slots.Claimed (slots : Slots κ) (key : κ) : Prop := ∃ number, (key, number) ∈ slots.claims

structure Slots.Inv (slots : Slots κ) : Prop where
  sound : slots.Sound
  claim_holds : ∀ claim ∈ slots.claims,
    slots.phase claim.1 = .reserved ∧ slots.holder claim.1 = some claim.2
  claims_distinct : (slots.claims.map Prod.fst).Nodup
  armed_reserved : ∀ key, slots.armed key → slots.phase key = .reserved ∧ ¬slots.Claimed key
  numbered : ∀ key number, slots.holder key = some number → number < slots.next

/-- New claims only hold numbers that were not given out before. -/
structure Slots.Grows (before after : Slots κ) : Prop where
  next_le : before.next ≤ after.next
  claims : ∀ claim ∈ after.claims, claim ∈ before.claims ∨ before.next ≤ claim.2

theorem grows_refl (slots : Slots κ) : slots.Grows slots := ⟨le_rfl, fun _ member => .inl member⟩

theorem grows_trans {first second third : Slots κ} (left : first.Grows second)
    (right : second.Grows third) : first.Grows third := by
  refine ⟨left.next_le.trans right.next_le, fun claim member => ?_⟩
  rcases right.claims claim member with old | new
  · exact left.claims claim old
  · exact .inr (left.next_le.trans new)

/-- A given-out number that no claim holds stays without one. -/
theorem unclaimed_grows {before after : Slots κ} (grows : before.Grows after) {key : κ}
    {number : Nat} (given : number < before.next) (unclaimed : (key, number) ∉ before.claims) :
    (key, number) ∉ after.claims := by
  intro member
  rcases grows.claims _ member with old | new
  · exact unclaimed old
  · exact absurd given (not_lt.mpr new)

theorem claimed_of_holder {slots : Slots κ} (inv : slots.Inv) {key : κ} {number : Nat}
    (holds : slots.holder key = some number) (claimed : slots.Claimed key) :
    (key, number) ∈ slots.claims := by
  obtain ⟨other, member⟩ := claimed
  obtain ⟨_, otherHolds⟩ := inv.claim_holds _ member
  have same : number = other := by simpa [holds] using otherHolds
  exact same ▸ member

/-- Slots that some transfer settles: reserved ones among `done` are filled,
among `dropped` they become vacant. -/
structure Settles (before after : Slots κ) (done dropped : κ → Prop) : Prop where
  fills : ∀ key, before.phase key = .reserved → done key → after.phase key = .filled
  drops : ∀ key, before.phase key = .reserved → ¬done key → dropped key →
    after.phase key = .vacant
  keeps : ∀ key, before.phase key ≠ .reserved ∨ (¬done key ∧ ¬dropped key) →
    after.phase key = before.phase key
  holder_eq : after.holder = before.holder
  next_eq : after.next = before.next
  settled_of : ∀ number, before.settled number → after.settled number
  claims_le : after.claims ≤ before.claims
  armed_of : ∀ key, after.armed key → before.armed key

/-- Settling is safe when the keys belong to no remaining claim or timer, and a
key that is filled is filled under the reservation it holds. -/
theorem settles_inv {before after : Slots κ} {done dropped : κ → Prop} (inv : before.Inv)
    (settles : Settles before after done dropped)
    (free : ∀ key, before.phase key = .reserved → done key ∨ dropped key →
      ¬after.Claimed key ∧ ¬after.armed key)
    (own : ∀ key, before.phase key = .reserved → done key →
      ∃ number, before.holder key = some number ∧ after.settled number) :
    after.Inv ∧ before.Grows after := by
  have kept : ∀ key, before.phase key = .reserved → (after.Claimed key ∨ after.armed key) →
      after.phase key = .reserved := by
    intro key reserved live
    by_cases touched : done key ∨ dropped key
    · obtain ⟨unclaimed, unarmed⟩ := free key reserved touched
      exact (live.elim unclaimed unarmed).elim
    · rw [settles.keeps key (.inr (not_or.mp touched)), reserved]
  refine ⟨⟨?_, ?_, ?_, ?_, ?_⟩, settles.next_eq.ge, fun claim member =>
    .inl (Multiset.mem_of_le settles.claims_le member)⟩
  · intro key filled
    rw [settles.holder_eq]
    by_cases reserved : before.phase key = .reserved
    · by_cases isDone : done key
      · exact own key reserved isDone
      · by_cases isDropped : dropped key
        · rw [settles.drops key reserved isDone isDropped] at filled
          cases filled
        · rw [settles.keeps key (.inr ⟨isDone, isDropped⟩), reserved] at filled
          cases filled
    · rw [settles.keeps key (.inl reserved)] at filled
      obtain ⟨number, holds, settled⟩ := inv.sound key filled
      exact ⟨number, holds, settles.settled_of number settled⟩
  · intro claim member
    obtain ⟨reserved, holds⟩ := inv.claim_holds claim (Multiset.mem_of_le settles.claims_le member)
    exact ⟨kept claim.1 reserved (.inl ⟨claim.2, member⟩), settles.holder_eq ▸ holds⟩
  · exact Multiset.nodup_of_le (Multiset.map_le_map settles.claims_le) inv.claims_distinct
  · intro key armed
    obtain ⟨reserved, unclaimed⟩ := inv.armed_reserved key (settles.armed_of key armed)
    refine ⟨kept key reserved (.inr armed), ?_⟩
    rintro ⟨number, member⟩
    exact unclaimed ⟨number, Multiset.mem_of_le settles.claims_le member⟩
  · intro key number holds
    rw [settles.next_eq]
    exact inv.numbered key number (settles.holder_eq ▸ holds)

/-- Vacant keys are reserved under fresh numbers; filled slots may be vacated to
make room. Each new reservation gets a claim, a timer or neither. -/
structure Reserves (before after : Slots κ) (keys : List κ) (added : Multiset (κ × Nat)) :
    Prop where
  vacant : ∀ key ∈ keys, before.phase key = .vacant
  reserved : ∀ key ∈ keys, after.phase key = .reserved
  evicts : ∀ key, key ∉ keys → after.phase key = before.phase key ∨
    (before.phase key = .filled ∧ after.phase key = .vacant)
  fresh : ∀ key ∈ keys, ∃ number, after.holder key = some number ∧
    before.next ≤ number ∧ number < after.next
  holder_eq : ∀ key, key ∉ keys → after.holder key = before.holder key
  next_le : before.next ≤ after.next
  settled_eq : after.settled = before.settled
  claims_eq : after.claims = before.claims + added
  added_holds : ∀ claim ∈ added, claim.1 ∈ keys ∧ after.holder claim.1 = some claim.2
  added_distinct : (added.map Prod.fst).Nodup
  armed_of : ∀ key, after.armed key → before.armed key ∨
    (key ∈ keys ∧ ∀ number, (key, number) ∉ added)

theorem reserves_inv {before after : Slots κ} {keys : List κ} {added : Multiset (κ × Nat)}
    (inv : before.Inv) (reserves : Reserves before after keys added) :
    after.Inv ∧ before.Grows after := by
  have outside : ∀ key, before.phase key ≠ .vacant → key ∉ keys := fun key busy member =>
    busy (reserves.vacant key member)
  have stays : ∀ key, before.phase key = .reserved → after.phase key = .reserved := by
    intro key reserved
    rcases reserves.evicts key (outside key (by rw [reserved]; exact Phase.noConfusion)) with
      same | ⟨filled, _⟩
    · rw [same, reserved]
    · rw [reserved] at filled
      cases filled
  have claimMember : ∀ claim, claim ∈ after.claims ↔ claim ∈ before.claims ∨ claim ∈ added := by
    intro claim
    rw [reserves.claims_eq, Multiset.mem_add]
  refine ⟨⟨?_, ?_, ?_, ?_, ?_⟩, reserves.next_le, ?_⟩
  · intro key filled
    by_cases member : key ∈ keys
    · rw [reserves.reserved key member] at filled
      cases filled
    · rcases reserves.evicts key member with same | ⟨_, vacated⟩
      · rw [same] at filled
        rw [reserves.holder_eq key member, reserves.settled_eq]
        exact inv.sound key filled
      · rw [vacated] at filled
        cases filled
  · intro claim member
    rcases (claimMember claim).mp member with old | new
    · obtain ⟨reserved, holds⟩ := inv.claim_holds claim old
      have notNew := outside claim.1 (by rw [reserved]; exact Phase.noConfusion)
      exact ⟨stays claim.1 reserved, by rw [reserves.holder_eq claim.1 notNew, holds]⟩
    · obtain ⟨inKeys, holds⟩ := reserves.added_holds claim new
      exact ⟨reserves.reserved claim.1 inKeys, holds⟩
  · rw [reserves.claims_eq, Multiset.map_add, Multiset.nodup_add]
    refine ⟨inv.claims_distinct, reserves.added_distinct, Multiset.disjoint_left.mpr ?_⟩
    intro key oldKey newKey
    obtain ⟨old, oldMember, rfl⟩ := Multiset.mem_map.mp oldKey
    obtain ⟨new, newMember, same⟩ := Multiset.mem_map.mp newKey
    have vacant := reserves.vacant new.1 (reserves.added_holds new newMember).1
    rw [same, (inv.claim_holds old oldMember).1] at vacant
    cases vacant
  · intro key armed
    rcases reserves.armed_of key armed with old | ⟨member, notAdded⟩
    · obtain ⟨reserved, unclaimed⟩ := inv.armed_reserved key old
      refine ⟨stays key reserved, ?_⟩
      rintro ⟨number, claim⟩
      rcases (claimMember _).mp claim with before | new
      · exact unclaimed ⟨number, before⟩
      · have vacant := reserves.vacant key (reserves.added_holds _ new).1
        rw [reserved] at vacant
        cases vacant
    · refine ⟨reserves.reserved key member, ?_⟩
      rintro ⟨number, claim⟩
      rcases (claimMember _).mp claim with before | new
      · have vacant := reserves.vacant key member
        rw [(inv.claim_holds _ before).1] at vacant
        cases vacant
      · exact notAdded number new
  · intro key number holds
    by_cases member : key ∈ keys
    · obtain ⟨fresh, freshHolds, _, bound⟩ := reserves.fresh key member
      rw [holds] at freshHolds
      cases freshHolds
      exact bound
    · rw [reserves.holder_eq key member] at holds
      exact (inv.numbered key number holds).trans_le reserves.next_le
  · intro claim member
    rcases (claimMember claim).mp member with old | new
    · exact .inl old
    · obtain ⟨inKeys, holds⟩ := reserves.added_holds claim new
      obtain ⟨fresh, freshHolds, lower, _⟩ := reserves.fresh claim.1 inKeys
      rw [holds] at freshHolds
      cases freshHolds
      exact .inr lower

/-- With every slot vacant nothing is left to check. -/
theorem vacant_inv {slots : Slots κ} (vacant : ∀ key, slots.phase key = .vacant)
    (noClaims : slots.claims = 0) (noTimers : ∀ key, ¬slots.armed key)
    (numbered : ∀ key number, slots.holder key = some number → number < slots.next) :
    slots.Inv := by
  constructor
  · intro key filled
    rw [vacant key] at filled
    cases filled
  · simp [noClaims]
  · simp [noClaims]
  · intro key armed
    exact (noTimers key armed).elim
  · exact numbered

end KvOffload.Reservations
