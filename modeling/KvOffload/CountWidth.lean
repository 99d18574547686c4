import KvOffload.CpuManagerSpec

/-!
# The width of reference counts

The source keeps a reference count in a signed field of 32 bits, and a write to it wraps
silently. Of all writes only the increment of a load can leave the width. While the counts
fit, a load with such fields is the load with exact counts.
-/

namespace KvOffload.CountWidth

open KvOffload.Base KvOffload.PolicyInterface KvOffload.CpuManager KvOffload.CpuPool
open KvOffload.CpuManagerSpec

set_option autoImplicit false

/-- What a field of 32 bits holds after a write. -/
def cInt32 (value : Int) : Int := value.bmod (2 ^ 32)

theorem c_int32_of_fits {value : Int} (nonneg : 0 ≤ value) (fits : value < 2 ^ 31) :
    cInt32 value = value := by
  apply Int.bmod_eq_of_le
  · omega
  · omega

variable {P : Type} [CachePolicy P]

/-- One key of `prepare_load` where counts have 32 bits. -/
def pinBlock32 (manager : CPUOffloadingManager P) (key : OffloadKey) :
    Except PyError (Nat × CPUOffloadingManager P) :=
  match manager.get key with
  | none => .error .assertionError
  | some block => do
      pyAssert (block.isReady = true)
      let held ←
        if block.refCnt = 0 then do
          let policy ← CachePolicy.markNonEvictable manager.policy key
          pyAssert (0 ≤ manager.numEvictableCacheBlocks - 1)
          .ok { manager with
            policy := policy
            numEvictableCacheBlocks := manager.numEvictableCacheBlocks - 1 }
        else .ok manager
      .ok (block.blockId, { held with
        policy := CachePolicy.setRefCnt held.policy key (cInt32 (block.refCnt + 1)) })

def prepareLoad32 (manager : CPUOffloadingManager P) :
    List OffloadKey → Except PyError (List Nat × CPUOffloadingManager P)
  | [] => .ok ([], manager)
  | key :: rest => do
      let (blockId, manager) ← pinBlock32 manager key
      let (blockIds, manager) ← prepareLoad32 manager rest
      .ok (blockId :: blockIds, manager)

variable {manager : CPUOffloadingManager P}

theorem prepare_load32_length (keys : List OffloadKey) {manager after : CPUOffloadingManager P}
    {blockIds : List Nat} (loaded : prepareLoad32 manager keys = .ok (blockIds, after)) :
    blockIds.length = keys.length := by
  induction keys generalizing manager blockIds with
  | nil =>
      cases loaded
      rfl
  | cons key rest ih =>
      obtain ⟨⟨blockId, middle⟩, _, loaded⟩ := bind_eq_ok.mp loaded
      obtain ⟨⟨later, last⟩, restLoaded, done⟩ := bind_eq_ok.mp loaded
      cases done
      exact congrArg Nat.succ (ih restLoaded)

theorem pin_block_fits {key : OffloadKey}
    (fits : ∀ block, manager.get key = some block → block.refCnt + 1 < 2 ^ 31) :
    pinBlock32 manager key = manager.pinBlock key := by
  unfold pinBlock32 CPUOffloadingManager.pinBlock
  cases found : manager.get key with
  | none => rfl
  | some block =>
      dsimp only
      by_cases ready : block.isReady = true
      · have nonneg : 0 ≤ block.refCnt := by simpa [BlockStatus.isReady] using ready
        rw [c_int32_of_fits (by omega) (fits block found)]
      · simp only [pyAssert, if_neg ready]
        rfl

/-- Loading the keys leaves every count within its field. -/
def CountsFit (manager : CPUOffloadingManager P) (keys : List OffloadKey) : Prop :=
  ∀ key ∈ keys, ∀ block, manager.get key = some block →
    block.refCnt + keys.count key < 2 ^ 31

/-- While the counts fit, a load is the exact one. -/
theorem prepare_load_fits [LawfulCachePolicy P] (keys : List OffloadKey)
    {manager : CPUOffloadingManager P} (inv : PoolInv manager) (fits : CountsFit manager keys) :
    prepareLoad32 manager keys = manager.prepareLoad keys := by
  induction keys generalizing manager with
  | nil => rfl
  | cons key rest ih =>
      have first : pinBlock32 manager key = manager.pinBlock key := by
        apply pin_block_fits
        intro block found
        have room := fits key List.mem_cons_self block found
        rw [List.count_cons_self] at room
        omega
      rw [prepareLoad32, CPUOffloadingManager.prepareLoad, first]
      cases pinned : manager.pinBlock key with
      | error problem => rfl
      | ok result =>
          obtain ⟨blockId, middle⟩ := result
          have isReady : ∃ block, manager.get key = some block ∧ 0 ≤ block.refCnt := by
            by_contra notReady
            rw [pin_block_error notReady] at pinned
            cases pinned
          obtain ⟨block, found, ready⟩ := isReady
          obtain ⟨after, ok, middleInv, getMiddle⟩ := pin_block_ok inv found ready
          cases pinned.symm.trans ok
          have later : prepareLoad32 middle rest = middle.prepareLoad rest := by
            apply ih middleInv
            intro other member now isNow
            rw [getMiddle] at isNow
            split at isNow
            · rename_i same
              cases isNow
              have room := fits key List.mem_cons_self block found
              rw [List.count_cons_self] at room
              rw [with_ref_cnt_ref_cnt, same]
              omega
            · rename_i different
              have room := fits other (List.mem_cons_of_mem _ member) now isNow
              rw [List.count_cons_of_ne (Ne.symm different)] at room
              exact room
          rw [ok_bind, ok_bind]
          dsimp only
          rw [later]

end KvOffload.CountWidth
