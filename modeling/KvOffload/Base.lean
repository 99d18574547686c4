import KvOffload.OrderedMap
import Mathlib.Data.Rat.Floor
import Mathlib.Tactic

/-!
# Core offloading abstractions

Keys, lookup results, transfer specs and request contexts shared by the
managers, the connector and the worker. A Python exception is an `Except`
error; which dictionary a `KeyError` comes from is kept, because some results
are about one dictionary only.
-/

namespace KvOffload.Base

open KvOffload

set_option autoImplicit false

inductive Dict where
  | cachePolicy
  | countsTracker
  | requestState
  | requestStatus
  | jobs
  | blockIdToPendingJobs
  | secondaryTiers
  | transferJobs
  | numScheduledTokens
  | groupByKey
  deriving DecidableEq, Repr

inductive PyError where
  | assertionError
  | keyError (dict : Dict)
  | indexError
  | valueError
  | runtimeError
  | exception
  deriving DecidableEq, Repr

/-- Python `assert`. -/
def pyAssert (condition : Prop) [Decidable condition] : Except PyError Unit :=
  if condition then .ok () else .error .assertionError

/-- Python `container[key]`. -/
def pyItem {α : Type} (dict : Dict) : Option α → Except PyError α
  | some value => .ok value
  | none => .error (.keyError dict)

theorem bind_eq_ok {ε α β : Type} {first : Except ε α} {next : α → Except ε β} {result : β} :
    (first >>= next) = .ok result ↔ ∃ value, first = .ok value ∧ next value = .ok result := by
  cases first with
  | error problem => simp [bind, Except.bind]
  | ok value => simp [bind, Except.bind]

@[simp] theorem ok_bind {ε α β : Type} (value : α) (next : α → Except ε β) :
    ((Except.ok value : Except ε α) >>= next) = next value := rfl

theorem map_eq_ok {ε α β : Type} {first : Except ε α} {change : α → β} {result : β} :
    first.map change = .ok result ↔ ∃ value, first = .ok value ∧ change value = result := by
  cases first with
  | error problem => simp [Except.map]
  | ok value => simp [Except.map]

/-- The exception that was raised. -/
def raised {α : Type} : Except PyError α → Option PyError
  | .ok _ => none
  | .error problem => some problem

theorem raised_eq_some {α : Type} {result : Except PyError α} {problem : PyError} :
    raised result = some problem ↔ result = .error problem := by
  cases result <;> simp [raised]

theorem raised_eq_none {α : Type} {result : Except PyError α} :
    raised result = none ↔ ∃ value, result = .ok value := by
  cases result <;> simp [raised]

@[simp] theorem py_assert_of {condition : Prop} [Decidable condition] (holds : condition) :
    pyAssert condition = .ok () := by
  simp [pyAssert, holds]

theorem py_assert_eq_ok {condition : Prop} [Decidable condition] {result : Unit} :
    pyAssert condition = .ok result ↔ condition := by
  unfold pyAssert
  split <;> simp_all

@[simp] theorem py_item_some {α : Type} (dict : Dict) (value : α) :
    pyItem dict (some value) = .ok value := rfl

theorem py_item_eq_ok {α : Type} {dict : Dict} {item : Option α} {value : α} :
    pyItem dict item = .ok value ↔ item = some value := by
  cases item <;> simp [pyItem]

/-- A byte string that the offloading code only stores and compares. -/
abbrev BlockHash := List UInt8

/-- Request ids are only stored and compared. -/
abbrev ReqId := Nat

abbrev JobId := Nat

/-- The decoded form of `block_hash + group_idx.to_bytes(4, "big")`: both parts
can be read back from the packed bytes, so equality of keys is equality of the
two parts. -/
structure OffloadKey where
  blockHash : BlockHash
  groupIdx : Nat
  deriving DecidableEq, Repr

def makeOffloadKey (blockHash : BlockHash) (groupIdx : Nat) : OffloadKey :=
  ⟨blockHash, groupIdx⟩

def getOffloadBlockHash (key : OffloadKey) : BlockHash := key.blockHash

inductive Medium where
  | cpu
  | storage
  deriving DecidableEq, Repr

inductive Locality where
  | loc
  | remote
  deriving DecidableEq, Repr

structure TierMatcher where
  medium : Option Medium := none
  locality : Option Locality := none
  deriving DecidableEq, Repr

def TierMatcher.matches (matcher : TierMatcher) (medium : Option Medium)
    (locality : Option Locality) : Bool :=
  (matcher.medium = none || medium = none || matcher.medium = medium) &&
    (matcher.locality = none || locality = none || matcher.locality = locality)

structure TierFilter where
  matchers : List TierMatcher
  deriving DecidableEq, Repr

/-- `TierFilter.ALL`: its one matcher has no field set and matches every tier. -/
def TierFilter.all : TierFilter := ⟨[{}]⟩

def TierFilter.allows (filter : TierFilter) (medium : Option Medium)
    (locality : Option Locality) : Bool :=
  filter.matchers.any fun matcher => matcher.matches medium locality

structure ReqContext where
  reqId : ReqId
  loadTierFilter : TierFilter := TierFilter.all
  deriving DecidableEq, Repr

inductive LookupResult where
  | miss
  | hit
  | hitPending
  | retry
  deriving DecidableEq, Repr

inductive OffloadPolicy where
  | blockLevel
  | requestLevel
  deriving DecidableEq, Repr

structure ScheduleEndContext where
  newReqIds : List ReqId
  preemptedReqIds : List ReqId

/-- The store spec is the list of CPU block ids of a `CPULoadStoreSpec`. -/
structure PrepareStoreOutput where
  keysToStore : List OffloadKey
  storeSpec : List Nat
  evictedKeys : List OffloadKey
  deriving DecidableEq, Repr

structure OffloadingEvent where
  keys : List OffloadKey
  medium : Medium
  removed : Bool
  deriving DecidableEq, Repr

/-- `GPULoadStoreSpec.__init__` asserts both length equations. -/
structure GPULoadStoreSpec where
  blockIds : List Nat
  groupSizes : List Nat
  blockIndices : List Nat
  sizes : groupSizes.sum = blockIds.length
  indices : blockIndices.length = groupSizes.length
  deriving DecidableEq

def GPULoadStoreSpec.make (blockIds groupSizes blockIndices : List Nat) :
    Except PyError GPULoadStoreSpec :=
  if lengths : groupSizes.sum = blockIds.length ∧ blockIndices.length = groupSizes.length then
    .ok ⟨blockIds, groupSizes, blockIndices, lengths.1, lengths.2⟩
  else .error .assertionError

theorem gpu_spec_make_ok {blockIds groupSizes blockIndices : List Nat}
    (sizes : groupSizes.sum = blockIds.length) (indices : blockIndices.length = groupSizes.length) :
    GPULoadStoreSpec.make blockIds groupSizes blockIndices =
      .ok ⟨blockIds, groupSizes, blockIndices, sizes, indices⟩ :=
  dif_pos ⟨sizes, indices⟩

/-- `cdiv` of the engine's math utilities. -/
def cdiv (dividend divisor : Nat) : Nat := (dividend + divisor - 1) / divisor

def roundDown (value multiple : Nat) : Nat := value / multiple * multiple

theorem cdiv_le_iff {dividend divisor quotient : Nat} (positive : 0 < divisor) :
    cdiv dividend divisor ≤ quotient ↔ dividend ≤ divisor * quotient := by
  unfold cdiv
  rw [← Nat.lt_succ_iff, Nat.div_lt_iff_lt_mul positive, Nat.succ_mul, Nat.mul_comm quotient]
  omega

theorem lt_cdiv_iff {dividend divisor quotient : Nat} (positive : 0 < divisor) :
    quotient < cdiv dividend divisor ↔ divisor * quotient < dividend := by
  rw [← not_le, cdiv_le_iff positive, not_le]

theorem cdiv_mono {smaller larger : Nat} (divisor : Nat) (le : smaller ≤ larger) :
    cdiv smaller divisor ≤ cdiv larger divisor :=
  Nat.div_le_div_right (by omega)

theorem cdiv_mul_self {divisor : Nat} (quotient : Nat) (positive : 0 < divisor) :
    cdiv (divisor * quotient) divisor = quotient := by
  apply le_antisymm
  · exact (cdiv_le_iff positive).mpr le_rfl
  · rcases Nat.eq_zero_or_pos quotient with zero | nonzero
    · omega
    · obtain ⟨smaller, rfl⟩ : ∃ smaller, quotient = smaller + 1 := ⟨quotient - 1, by omega⟩
      exact (lt_cdiv_iff positive).mpr (by rw [Nat.mul_succ]; omega)

theorem cdiv_min (first second : Nat) {divisor : Nat} (positive : 0 < divisor) :
    cdiv (min first (divisor * second)) divisor = min (cdiv first divisor) second := by
  apply le_antisymm
  · refine le_min (cdiv_mono divisor (min_le_left _ _)) ?_
    exact (cdiv_le_iff positive).mpr (min_le_right _ _)
  · by_contra larger
    rw [not_le, lt_min_iff] at larger
    obtain ⟨belowFirst, belowSecond⟩ := larger
    rw [lt_cdiv_iff positive] at belowFirst
    have low := (cdiv_le_iff positive).mp
      (le_refl (cdiv (min first (divisor * second)) divisor))
    rcases min_le_iff.mp low with small | small
    · omega
    · exact absurd (Nat.le_of_mul_le_mul_left small positive) (Nat.not_le_of_lt belowSecond)

theorem cdiv_add_self (dividend : Nat) {divisor : Nat} (positive : 0 < divisor) :
    cdiv (dividend + divisor) divisor = cdiv dividend divisor + 1 := by
  unfold cdiv
  rw [show dividend + divisor + divisor - 1 = dividend + divisor - 1 + divisor by omega,
    Nat.add_div_right _ positive]

theorem cdiv_cdiv (dividend : Nat) {first second : Nat} (firstPos : 0 < first)
    (secondPos : 0 < second) : cdiv (cdiv dividend first) second = cdiv dividend (first * second) := by
  apply eq_of_forall_ge_iff
  intro quotient
  rw [cdiv_le_iff secondPos, cdiv_le_iff firstPos, cdiv_le_iff (Nat.mul_pos firstPos secondPos),
    Nat.mul_assoc]

theorem cdiv_add_mul (dividend quotient : Nat) {divisor : Nat} (positive : 0 < divisor) :
    cdiv (dividend + divisor * quotient) divisor = cdiv dividend divisor + quotient := by
  induction quotient with
  | zero => rfl
  | succ quotient ih =>
      rw [Nat.mul_succ, ← Nat.add_assoc, cdiv_add_self _ positive, ih, Nat.add_assoc]

theorem le_mul_cdiv {divisor : Nat} (dividend : Nat) (positive : 0 < divisor) :
    dividend ≤ divisor * cdiv dividend divisor :=
  (cdiv_le_iff positive).mp le_rfl

end KvOffload.Base
