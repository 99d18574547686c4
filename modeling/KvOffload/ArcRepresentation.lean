import KvOffload.CpuHistories
import KvOffload.ArcPolicy

/-!
# The four lists of ARC

Live and ghost lists are pairwise disjoint, a pending block is in `t1`, and the sizes
stay within the capacity. Each move of the policy keeps the shape of the lists; the
size of the live lists follows from the balance of the pool.
-/

namespace KvOffload.ArcRepresentation

open KvOffload KvOffload.Base KvOffload.PolicyInterface KvOffload.CpuManager
open KvOffload.FloatRounding KvOffload.ArcPolicy KvOffload.CpuPool KvOffload.CpuManagerSpec KvOffload.PolicyMoves
open KvOffload.CpuManagerMoves KvOffload.EventRuns KvOffload.CpuHistories

set_option autoImplicit false

/-- Where keys are: nowhere twice, and only filled blocks in `t2`. -/
structure ArcShape (policy : ARCCachePolicy) : Prop where
  live : LiveListsDisjoint policy
  ghosts : ∀ key, policy.b1.get? key = none ∨ policy.b2.get? key = none
  t1_ghosts : ∀ key, policy.t1.get? key = none ∨
    policy.b1.get? key = none ∧ policy.b2.get? key = none
  t2_ghosts : ∀ key, policy.t2.get? key = none ∨
    policy.b1.get? key = none ∧ policy.b2.get? key = none
  filled : ∀ key block, policy.t2.get? key = some block → 0 ≤ block.refCnt

structure ArcInv (policy : ARCCachePolicy) : Prop where
  shape : ArcShape policy
  b1_size : policy.b1.size ≤ policy.cacheCapacity
  b2_size : policy.b2.size ≤ policy.cacheCapacity
  target_low : 0 ≤ policy.targetT1Size
  target_high : policy.rounding.round policy.cacheCapacity = policy.cacheCapacity →
    policy.targetT1Size ≤ policy.cacheCapacity

/-- What a policy is created with. -/
structure SameScale (policy after : ARCCachePolicy) : Prop where
  cacheCapacity : after.cacheCapacity = policy.cacheCapacity
  rounding : after.rounding = policy.rounding

theorem SameScale.refl (policy : ARCCachePolicy) : SameScale policy policy := ⟨rfl, rfl⟩

theorem SameScale.trans {policy middle after : ARCCachePolicy} (first : SameScale policy middle)
    (later : SameScale middle after) : SameScale policy after :=
  ⟨later.cacheCapacity.trans first.cacheCapacity, later.rounding.trans first.rounding⟩

section Shape

variable {policy : ARCCachePolicy}

/-- The shape depends on what the lists hold, not on their order. -/
theorem shape_of_same {after : ARCCachePolicy} (shape : ArcShape policy)
    (t1 : ∀ key, after.t1.get? key = policy.t1.get? key)
    (t2 : ∀ key, after.t2.get? key = policy.t2.get? key)
    (b1 : ∀ key, after.b1.get? key = policy.b1.get? key)
    (b2 : ∀ key, after.b2.get? key = policy.b2.get? key) : ArcShape after := by
  constructor
  · intro key
    rw [t1, t2]
    exact shape.live key
  · intro key
    rw [b1, b2]
    exact shape.ghosts key
  · intro key
    rw [t1, b1, b2]
    exact shape.t1_ghosts key
  · intro key
    rw [t2, b1, b2]
    exact shape.t2_ghosts key
  · intro key block
    rw [t2]
    exact shape.filled key block

theorem promote_shape (shape : ArcShape policy) {key : OffloadKey} {block : BlockStatus}
    (stored : policy.t1.get? key = some block) (ready : 0 ≤ block.refCnt) :
    ArcShape { policy with t1 := policy.t1.erase key, t2 := policy.t2.set key block } := by
  have unghosted : policy.b1.get? key = none ∧ policy.b2.get? key = none := by
    simpa [stored] using shape.t1_ghosts key
  constructor
  · intro other
    simp only [OrderedMap.get_erase, OrderedMap.get_set]
    by_cases same : other = key
    · simp [same]
    · simpa [same] using shape.live other
  · exact shape.ghosts
  · intro other
    simp only [OrderedMap.get_erase]
    by_cases same : other = key
    · simp [same]
    · simpa [same] using shape.t1_ghosts other
  · intro other
    simp only [OrderedMap.get_set]
    by_cases same : other = key
    · simp [same, unghosted]
    · simpa [same] using shape.t2_ghosts other
  · intro other found
    simp only [OrderedMap.get_set]
    by_cases same : other = key
    · simp only [same, if_true, Option.some.injEq]
      rintro rfl
      exact ready
    · simpa [same] using shape.filled other found

theorem insert_shape (shape : ArcShape policy) {key : OffloadKey} (block : BlockStatus)
    (absent : policy.t2.get? key = none) : ArcShape (policy.insert key block) := by
  constructor
  · intro other
    simp only [ARCCachePolicy.insert, OrderedMap.get_set]
    by_cases same : other = key
    · simp [same, absent]
    · simpa [same] using shape.live other
  · intro other
    simp only [ARCCachePolicy.insert, OrderedMap.get_erase]
    by_cases same : other = key
    · simp [same]
    · simpa [same] using shape.ghosts other
  · intro other
    simp only [ARCCachePolicy.insert, OrderedMap.get_set, OrderedMap.get_erase]
    by_cases same : other = key
    · simp [same]
    · simpa [same] using shape.t1_ghosts other
  · intro other
    simp only [ARCCachePolicy.insert, OrderedMap.get_erase]
    by_cases same : other = key
    · simp [same]
    · simpa [same] using shape.t2_ghosts other
  · exact shape.filled

theorem remove_shape (shape : ArcShape policy) (key : OffloadKey) :
    ArcShape (policy.remove key) := by
  have gone : ∀ {other : OffloadKey} {β : Type} {value : Option β} {rest : Prop},
      value = none ∨ rest → (if other = key then none else value) = none ∨ rest := by
    intro other β value rest
    split <;> simp
  unfold ARCCachePolicy.remove
  split
  · constructor
    · intro other
      simp only [OrderedMap.get_erase]
      exact gone (shape.live other)
    · exact shape.ghosts
    · intro other
      simp only [OrderedMap.get_erase]
      exact gone (shape.t1_ghosts other)
    · exact shape.t2_ghosts
    · exact shape.filled
  · constructor
    · intro other
      simp only [OrderedMap.get_erase]
      exact (gone (shape.live other).symm).symm
    · exact shape.ghosts
    · exact shape.t1_ghosts
    · intro other
      simp only [OrderedMap.get_erase]
      exact gone (shape.t2_ghosts other)
    · intro other block
      simp only [OrderedMap.get_erase]
      split
      · simp
      · exact shape.filled other block

theorem set_ref_cnt_shape (shape : ArcShape policy) (key : OffloadKey) {refCnt : Int}
    (ready : 0 ≤ refCnt) : ArcShape (policy.setRefCnt key refCnt) := by
  have live := arc_set_ref_cnt_disjoint shape.live key refCnt
  unfold ARCCachePolicy.setRefCnt at live ⊢
  have kept : ∀ {other : OffloadKey} {β : Type} {value : Option β} {change : β → β} {rest : Prop},
      value = none ∨ rest →
        (if other = key then value.map change else value) = none ∨ rest := by
    intro other β value change rest
    split <;> simp
  split
  · rename_i inT1
    rw [if_pos inT1] at live
    constructor
    · exact live
    · exact shape.ghosts
    · intro other
      simp only [OrderedMap.get_modify]
      exact kept (shape.t1_ghosts other)
    · exact shape.t2_ghosts
    · exact shape.filled
  · rename_i notInT1
    rw [if_neg notInT1] at live
    constructor
    · exact live
    · exact shape.ghosts
    · exact shape.t1_ghosts
    · intro other
      simp only [OrderedMap.get_modify]
      exact kept (shape.t2_ghosts other)
    · intro other block
      simp only [OrderedMap.get_modify]
      split
      · intro found
        obtain ⟨old, _, rfl⟩ := Option.map_eq_some_iff.mp found
        exact ready
      · exact shape.filled other block

/-- An evicted key goes from a live list to the ghost list of the same number. -/
theorem drop_candidate_shape (shape : ArcShape policy)
    {candidate : (OffloadKey × BlockStatus) × Bool}
    (present : if candidate.2 then policy.t1.get? candidate.1.1 ≠ none
      else policy.t2.get? candidate.1.1 ≠ none) : ArcShape (policy.dropCandidate candidate) := by
  obtain ⟨⟨key, block⟩, fromT1⟩ := candidate
  cases fromT1 with
  | true =>
      have stored : policy.t1.get? key ≠ none := by simpa using present
      have unghosted := (shape.t1_ghosts key).resolve_left stored
      have single := (shape.live key).resolve_left stored
      constructor
      · intro other
        simp only [ARCCachePolicy.dropCandidate, if_true, OrderedMap.get_erase]
        by_cases same : other = key
        · simp [same]
        · simpa [same] using shape.live other
      · intro other
        simp only [ARCCachePolicy.dropCandidate, if_true, OrderedMap.get_set]
        by_cases same : other = key
        · simp [same, unghosted]
        · simpa [same] using shape.ghosts other
      · intro other
        simp only [ARCCachePolicy.dropCandidate, if_true, OrderedMap.get_erase, OrderedMap.get_set]
        by_cases same : other = key
        · simp [same]
        · simpa [same] using shape.t1_ghosts other
      · intro other
        simp only [ARCCachePolicy.dropCandidate, if_true, OrderedMap.get_set]
        by_cases same : other = key
        · simp [same, single]
        · simpa [same] using shape.t2_ghosts other
      · exact shape.filled
  | false =>
      have stored : policy.t2.get? key ≠ none := by simpa using present
      have unghosted := (shape.t2_ghosts key).resolve_left stored
      have single := (shape.live key).resolve_right stored
      constructor
      · intro other
        simp only [ARCCachePolicy.dropCandidate, Bool.false_eq_true, if_false, OrderedMap.get_erase]
        by_cases same : other = key
        · simp [same]
        · simpa [same] using shape.live other
      · intro other
        simp only [ARCCachePolicy.dropCandidate, Bool.false_eq_true, if_false, OrderedMap.get_set]
        by_cases same : other = key
        · simp [same, unghosted]
        · simpa [same] using shape.ghosts other
      · intro other
        simp only [ARCCachePolicy.dropCandidate, Bool.false_eq_true, if_false, OrderedMap.get_set]
        by_cases same : other = key
        · simp [same, single]
        · simpa [same] using shape.t1_ghosts other
      · intro other
        simp only [ARCCachePolicy.dropCandidate, Bool.false_eq_true, if_false,
          OrderedMap.get_erase, OrderedMap.get_set]
        by_cases same : other = key
        · simp [same]
        · simpa [same] using shape.t2_ghosts other
      · intro other found
        simp only [ARCCachePolicy.dropCandidate, Bool.false_eq_true, if_false, OrderedMap.get_erase]
        split
        · simp
        · exact shape.filled other found

theorem drop_candidate_other (candidate : (OffloadKey × BlockStatus) × Bool) {key : OffloadKey}
    (different : key ≠ candidate.1.1) :
    (policy.dropCandidate candidate).t1.get? key = policy.t1.get? key ∧
      (policy.dropCandidate candidate).t2.get? key = policy.t2.get? key := by
  unfold ARCCachePolicy.dropCandidate
  split <;> simp [OrderedMap.get_erase, different]

theorem drop_candidates_shape (found : List ((OffloadKey × BlockStatus) × Bool))
    {policy : ARCCachePolicy} (shape : ArcShape policy)
    (distinct : (found.map fun candidate => candidate.1.1).Nodup)
    (present : ∀ candidate ∈ found, if candidate.2 then policy.t1.get? candidate.1.1 ≠ none
      else policy.t2.get? candidate.1.1 ≠ none) :
    ArcShape (found.foldl ARCCachePolicy.dropCandidate policy) := by
  induction found generalizing policy with
  | nil => exact shape
  | cons candidate rest ih =>
      rw [List.map_cons, List.nodup_cons] at distinct
      apply ih (drop_candidate_shape shape (present candidate List.mem_cons_self)) distinct.2
      intro other member
      have different : other.1.1 ≠ candidate.1.1 := by
        intro same
        exact distinct.1 (same ▸ List.mem_map_of_mem member)
      obtain ⟨t1, t2⟩ := @drop_candidate_other policy candidate _ different
      rw [t1, t2]
      exact present other (List.mem_cons_of_mem _ member)

theorem trim_ghosts_shape (shape : ArcShape policy) : ArcShape policy.trimGhosts := by
  constructor
  · exact shape.live
  · intro key
    exact (shape.ghosts key).imp (OrderedMap.get_drop_oldest_of_none _ _)
      (OrderedMap.get_drop_oldest_of_none _ _)
  · intro key
    exact (shape.t1_ghosts key).imp_right fun absent =>
      ⟨OrderedMap.get_drop_oldest_of_none _ _ absent.1,
        OrderedMap.get_drop_oldest_of_none _ _ absent.2⟩
  · intro key
    exact (shape.t2_ghosts key).imp_right fun absent =>
      ⟨OrderedMap.get_drop_oldest_of_none _ _ absent.1,
        OrderedMap.get_drop_oldest_of_none _ _ absent.2⟩
  · exact shape.filled

end Shape

section Moves

variable {policy after : ARCCachePolicy}

theorem drop_candidates_scale (found : List ((OffloadKey × BlockStatus) × Bool))
    (policy : ARCCachePolicy) :
    SameScale policy (found.foldl ARCCachePolicy.dropCandidate policy) ∧
      (found.foldl ARCCachePolicy.dropCandidate policy).targetT1Size = policy.targetT1Size := by
  induction found generalizing policy with
  | nil => exact ⟨.refl _, rfl⟩
  | cons candidate rest ih =>
      have first : SameScale policy (policy.dropCandidate candidate) ∧
          (policy.dropCandidate candidate).targetT1Size = policy.targetT1Size := by
        unfold ARCCachePolicy.dropCandidate
        split <;> exact ⟨⟨rfl, rfl⟩, rfl⟩
      obtain ⟨scale, target⟩ := ih (policy.dropCandidate candidate)
      exact ⟨first.1.trans scale, target.trans first.2⟩

theorem evict_inv (inv : ArcInv policy) {count : Nat} {guarded : List OffloadKey}
    {victims : Victims} (evicted : policy.evict count guarded = some (victims, after)) :
    ArcInv after ∧ SameScale policy after := by
  unfold ARCCachePolicy.evict at evicted
  split at evicted
  · cases evicted
    exact ⟨inv, .refl _⟩
  · split at evicted
    · cases evicted
    · rename_i found selected
      cases evicted
      have nodup : ((policy.t1.entries ++ policy.t2.entries).map Prod.fst).Nodup := by
        simpa [OrderedMap.keys] using live_keys_nodup inv.shape.live
      have selection := select_candidates_spec count _ _ _ nodup selected
      have shape := drop_candidates_shape found inv.shape selection.distinct (by
        intro candidate member
        have source := selection.source candidate member
        split at source
        · rename_i fromT1
          rw [if_pos fromT1, (policy.t1.get_eq_some_iff _ candidate.1.2).mpr source]
          simp
        · rename_i fromT2
          rw [if_neg fromT2, (policy.t2.get_eq_some_iff _ candidate.1.2).mpr source]
          simp)
      obtain ⟨scale, target⟩ := drop_candidates_scale found policy
      refine ⟨⟨trim_ghosts_shape shape, ?_, ?_, ?_, ?_⟩, ⟨scale.cacheCapacity, scale.rounding⟩⟩
      · simp only [ARCCachePolicy.trimGhosts, OrderedMap.size_drop_oldest]
        omega
      · simp only [ARCCachePolicy.trimGhosts, OrderedMap.size_drop_oldest]
        omega
      · show 0 ≤ (found.foldl ARCCachePolicy.dropCandidate policy).targetT1Size
        rw [target]
        exact inv.target_low
      · intro kept
        replace kept : (found.foldl ARCCachePolicy.dropCandidate policy).rounding.round
            (found.foldl ARCCachePolicy.dropCandidate policy).cacheCapacity =
              (found.foldl ARCCachePolicy.dropCandidate policy).cacheCapacity := kept
        show (found.foldl ARCCachePolicy.dropCandidate policy).targetT1Size ≤
          (found.foldl ARCCachePolicy.dropCandidate policy).cacheCapacity
        rw [scale.cacheCapacity, scale.rounding] at kept
        rw [target, scale.cacheCapacity]
        exact inv.target_high kept

theorem touch_key_inv (inv : ArcInv policy) (key : OffloadKey) :
    ArcInv (policy.touchKey key) ∧ SameScale policy (policy.touchKey key) := by
  have adapts : ∀ quotient : Rat, 0 ≤ max 1 quotient :=
    fun quotient => zero_le_one.trans (le_max_left _ _)
  unfold ARCCachePolicy.touchKey
  cases inT1 : policy.t1.get? key with
  | some block =>
      simp only
      split
      · rename_i ready
        have shape := promote_shape inv.shape inT1 (ready_iff.mp ready)
        exact ⟨⟨shape, inv.b1_size, inv.b2_size, inv.target_low, inv.target_high⟩, ⟨rfl, rfl⟩⟩
      · have shape : ArcShape { policy with t1 := (policy.t1.erase key).set key block } := by
          refine shape_of_same inv.shape ?_ (fun _ => rfl) (fun _ => rfl) (fun _ => rfl)
          intro other
          simp only [OrderedMap.get_set, OrderedMap.get_erase]
          by_cases same : other = key <;> simp [same, inT1]
        exact ⟨⟨shape, inv.b1_size, inv.b2_size, inv.target_low, inv.target_high⟩, ⟨rfl, rfl⟩⟩
  | none =>
      simp only
      split
      · have shape : ArcShape { policy with t2 := policy.t2.moveToEnd key } :=
          shape_of_same inv.shape (fun _ => rfl) (policy.t2.get_move_to_end key) (fun _ => rfl)
            (fun _ => rfl)
        exact ⟨⟨shape, inv.b1_size, inv.b2_size, inv.target_low, inv.target_high⟩, ⟨rfl, rfl⟩⟩
      · split
        · -- a hit in b1 raises the target
          refine ⟨⟨?_, ?_, inv.b2_size, ?_, fun _ => min_le_right _ _⟩, ⟨rfl, rfl⟩⟩
          · exact shape_of_same inv.shape (fun _ => rfl) (fun _ => rfl)
              (policy.b1.get_move_to_end key) (fun _ => rfl)
          · exact (policy.b1.size_move_to_end key).trans_le inv.b1_size
          · apply le_min
            · exact policy.rounding.nonneg (add_nonneg inv.target_low (adapts _))
            · exact Nat.cast_nonneg _
        · split
          · -- a hit in b2 lowers it
            refine ⟨⟨?_, inv.b1_size, ?_, le_max_right _ _, ?_⟩, ⟨rfl, rfl⟩⟩
            · exact shape_of_same inv.shape (fun _ => rfl) (fun _ => rfl) (fun _ => rfl)
                (policy.b2.get_move_to_end key)
            · exact (policy.b2.size_move_to_end key).trans_le inv.b2_size
            · intro kept
              apply max_le
              · exact policy.rounding.le_of_kept kept
                  ((sub_le_self _ (adapts _)).trans (inv.target_high kept))
              · exact Nat.cast_nonneg _
          · exact ⟨inv, .refl _⟩

theorem touch_keys_inv (walk : List OffloadKey) {policy : ARCCachePolicy} (inv : ArcInv policy) :
    ArcInv (walk.foldl ARCCachePolicy.touchKey policy) ∧
      SameScale policy (walk.foldl ARCCachePolicy.touchKey policy) := by
  induction walk generalizing policy with
  | nil => exact ⟨inv, .refl _⟩
  | cons key rest ih =>
      obtain ⟨first, scale⟩ := touch_key_inv inv key
      obtain ⟨later, laterScale⟩ := ih first
      exact ⟨later, scale.trans laterScale⟩

theorem remove_inv (inv : ArcInv policy) (key : OffloadKey) :
    ArcInv (policy.remove key) ∧ SameScale policy (policy.remove key) := by
  have shape := remove_shape inv.shape key
  unfold ARCCachePolicy.remove at shape ⊢
  split at shape
  · rename_i inT1
    rw [if_pos inT1]
    exact ⟨⟨shape, inv.b1_size, inv.b2_size, inv.target_low, inv.target_high⟩, ⟨rfl, rfl⟩⟩
  · rename_i notInT1
    rw [if_neg notInT1]
    exact ⟨⟨shape, inv.b1_size, inv.b2_size, inv.target_low, inv.target_high⟩, ⟨rfl, rfl⟩⟩

theorem set_ref_cnt_inv (inv : ArcInv policy) (key : OffloadKey) {refCnt : Int}
    (ready : 0 ≤ refCnt) : ArcInv (policy.setRefCnt key refCnt) ∧
      SameScale policy (policy.setRefCnt key refCnt) := by
  have shape := set_ref_cnt_shape inv.shape key ready
  unfold ARCCachePolicy.setRefCnt at shape ⊢
  split at shape
  · rename_i inT1
    rw [if_pos inT1]
    exact ⟨⟨shape, inv.b1_size, inv.b2_size, inv.target_low, inv.target_high⟩, ⟨rfl, rfl⟩⟩
  · rename_i notInT1
    rw [if_neg notInT1]
    exact ⟨⟨shape, inv.b1_size, inv.b2_size, inv.target_low, inv.target_high⟩, ⟨rfl, rfl⟩⟩

/-- A key that may be reserved is not in `t2`, where every block is filled. -/
theorem reservable_not_in_t2 (shape : ArcShape policy) {key : OffloadKey}
    (unready : ∀ block, policy.get key = some block → block.refCnt < 0) :
    policy.t2.get? key = none := by
  cases inT2 : policy.t2.get? key with
  | none => rfl
  | some block =>
      have single := (shape.live key).resolve_right (by simp [inT2])
      have pending := unready block (by simp [ARCCachePolicy.get, single, inT2])
      have := shape.filled key block inT2
      omega

theorem moved_inv {move : Move} (inv : ArcInv policy) (moved : Moved policy move after) :
    ArcInv after ∧ SameScale policy after := by
  cases moved with
  | touch keys => exact touch_keys_inv keys.reverse inv
  | @reserve key blockId unready =>
      have absent := reservable_not_in_t2 inv.shape unready
      refine ⟨⟨insert_shape inv.shape _ absent, ?_, ?_, inv.target_low, inv.target_high⟩, ⟨rfl, rfl⟩⟩
      · exact (policy.b1.size_erase_le key).trans inv.b1_size
      · exact (policy.b2.size_erase_le key).trans inv.b2_size
  | evict evicted => exact evict_inv inv (Except.ok.inj evicted)
  | @discard _ key block stored pending removed =>
      cases removed
      exact remove_inv inv key
  | @pin held key block stored idle marked =>
      cases marked
      exact set_ref_cnt_inv inv key zero_le_one
  | recount stored held stillHeld => exact set_ref_cnt_inv inv _ stillHeld.le
  | @release key block stored busy => exact set_ref_cnt_inv inv key le_rfl

end Moves

theorem new_inv (cacheCapacity : Nat) (rounding : Rounding) :
    ArcInv (ARCCachePolicy.new cacheCapacity rounding) := by
  constructor
  · constructor
    · exact fun _ => .inl rfl
    · exact fun _ => .inl rfl
    · exact fun _ => .inl rfl
    · exact fun _ => .inl rfl
    · exact fun _ _ found => by cases found
  · exact Nat.zero_le _
  · exact Nat.zero_le _
  · exact le_rfl
  · exact fun _ => Nat.cast_nonneg _

instance : TrackedPolicy ARCCachePolicy where
  Tracked := ArcInv
  lawful inv := inv.shape.live
  tracked_clear policy := new_inv policy.cacheCapacity policy.rounding
  tracked_moved inv moved := (moved_inv inv moved).1
  get_reserve {policy key} blockId inv unready other := by
    have absent := reservable_not_in_t2 inv.shape unready
    simp only [CachePolicy.get, CachePolicy.insert, ARCCachePolicy.get, ARCCachePolicy.insert,
      OrderedMap.get_set]
    by_cases same : other = key <;> simp [same]

section Runs

variable {history after : CpuHistory ARCCachePolicy}

theorem moves_scale {moves : List Move} {policy after : ARCCachePolicy} (inv : ArcInv policy)
    (moved : Moves policy moves after) : SameScale policy after := by
  induction moves generalizing policy with
  | nil =>
      obtain rfl := moved
      exact .refl _
  | cons move rest ih =>
      obtain ⟨middle, first, later⟩ := moved
      obtain ⟨middleInv, scale⟩ := moved_inv inv first
      exact scale.trans (ih middleInv later)

structure HistoryInv (numBlocks : Nat) (rounding : Rounding)
    (history : CpuHistory ARCCachePolicy) : Prop where
  arc : ArcInv history.manager.policy
  capacity : history.manager.policy.cacheCapacity = numBlocks
  rounding : history.manager.policy.rounding = rounding
  numBlocks : history.manager.numBlocks = numBlocks
  pool : PoolBound history.manager

theorem apply_keeps_history {numBlocks : Nat} {rounding : Rounding}
    (inv : HistoryInv numBlocks rounding history) {event : CpuEvent}
    (applied : history.apply event = .ok after) : HistoryInv numBlocks rounding after := by
  by_cases plain : Plain event
  · obtain ⟨_, moves, emitted, performed, _⟩ := apply_call plain inv.arc applied
    constructor
    · exact tracked_moves inv.arc performed.policy
    · exact (moves_scale inv.arc performed.policy).cacheCapacity.trans inv.capacity
    · exact (moves_scale inv.arc performed.policy).rounding.trans inv.rounding
    · exact performed.numBlocks.trans inv.numBlocks
    · exact performed_keeps_bound inv.arc inv.pool performed
  · cases event with
    | resetCache =>
        cases applied
        obtain ⟨policy, numBlocks⟩ := reset_cache_fields history.manager
        have arc : ArcInv history.manager.resetCache.policy := policy ▸ new_inv _ _
        constructor
        · exact arc
        · exact (congrArg ARCCachePolicy.cacheCapacity policy).trans inv.capacity
        · exact (congrArg ARCCachePolicy.rounding policy).trans inv.rounding
        · exact numBlocks.trans inv.numBlocks
        · apply empty_bound arc _ rfl rfl
          intro key
          show CachePolicy.get history.manager.resetCache.policy key = none
          rw [policy]
          exact LawfulCachePolicy.get_clear _ key
    | takeEvents =>
        cases applied
        have same := take_events_same history.manager
        constructor
        · show ArcInv history.manager.takeEvents.2.policy
          rw [same.policy]
          exact inv.arc
        · show history.manager.takeEvents.2.policy.cacheCapacity = _
          rw [same.policy]
          exact inv.capacity
        · show history.manager.takeEvents.2.policy.rounding = _
          rw [same.policy]
          exact inv.rounding
        · exact same.numBlocks.trans inv.numBlocks
        · exact same_keeps_bound same inv.pool
    | _ => exact absurd trivial plain

theorem start_history (params : CpuManagerParams) (rounding : Rounding) :
    HistoryInv params.numBlocks rounding
      (.start params (ARCCachePolicy.new params.numBlocks rounding)) := by
  constructor
  · exact new_inv _ _
  · rfl
  · rfl
  · rfl
  · exact empty_bound (new_inv params.numBlocks rounding) (fun _ => rfl) rfl rfl

theorem reached_history {params : CpuManagerParams} {rounding : Rounding}
    (reached : CpuHistory.Reached params (ARCCachePolicy.new params.numBlocks rounding) history) :
    HistoryInv params.numBlocks rounding history :=
  reaches_invariant (fun _ _ _ inv _ applied => apply_keeps_history inv applied)
    (start_history params rounding) reached

end Runs

/-- The denominator of a ghost hit in `touch`, when the key is one. -/
def ghostDivisor (policy : ARCCachePolicy) (key : OffloadKey) : Option Nat :=
  if policy.t1.contains key ∨ policy.t2.contains key then none
  else if policy.b1.contains key then some policy.b1.size
  else if policy.b2.contains key then some policy.b2.size
  else none

/-- The denominators of a whole `touch`, in the order of its walk. -/
def touchDivisors (policy : ARCCachePolicy) : List OffloadKey → List Nat
  | [] => []
  | key :: rest => (ghostDivisor policy key).toList ++ touchDivisors (policy.touchKey key) rest

theorem touch_divisors_pos (walk : List OffloadKey) (policy : ARCCachePolicy) :
    0 ∉ touchDivisors policy walk := by
  induction walk generalizing policy with
  | nil => simp [touchDivisors]
  | cons key rest ih =>
      rw [touchDivisors, List.mem_append, not_or]
      refine ⟨?_, ih _⟩
      unfold ghostDivisor
      split
      · simp
      · split
        · rename_i present
          simpa using (policy.b1.size_pos_of_contains present).ne
        · split
          · rename_i present
            simpa using (policy.b2.size_pos_of_contains present).ne
          · simp

/-- The representation of ARC over a pool of `capacity` blocks. -/
structure Represented (capacity : Nat) (policy : ARCCachePolicy) : Prop where
  disjoint : [policy.t1.keys, policy.t2.keys, policy.b1.keys, policy.b2.keys].Pairwise List.Disjoint
  live_size : policy.t1.size + policy.t2.size ≤ capacity
  b1_size : policy.b1.size ≤ capacity
  b2_size : policy.b2.size ≤ capacity
  target_low : 0 ≤ policy.targetT1Size
  target_high : policy.targetT1Size ≤ capacity
  pending_in_t1 : ∀ key block, policy.get key = some block → block.refCnt = -1 →
    key ∈ policy.t1.keys
  divisors : ∀ keys : List OffloadKey, 0 ∉ touchDivisors policy keys.reverse

theorem disjoint_keys {ν μ : Type} {left : OrderedMap OffloadKey ν} {right : OrderedMap OffloadKey μ}
    (apart : ∀ key, left.get? key = none ∨ right.get? key = none) :
    left.keys.Disjoint right.keys := by
  intro key inLeft inRight
  rw [OrderedMap.mem_keys_iff] at inLeft inRight
  rcases apart key with absent | absent
  · simp [absent] at inLeft
  · simp [absent] at inRight

/-- A history of a manager with ARC, whose capacity is the size of the pool, keeps the
representation whenever its arithmetic keeps the capacity. -/
theorem history_represented {params : CpuManagerParams} {rounding : Rounding}
    {history : CpuHistory ARCCachePolicy}
    (kept : rounding.round params.numBlocks = params.numBlocks)
    (reached : CpuHistory.Reached params (ARCCachePolicy.new params.numBlocks rounding) history) :
    Represented params.numBlocks history.manager.policy := by
  have inv := reached_history reached
  have shape := inv.arc.shape
  constructor
  · simp only [List.pairwise_cons, List.mem_cons, List.not_mem_nil, or_false, forall_eq_or_imp,
      forall_eq, false_implies, implies_true, and_true, List.Pairwise.nil]
    refine ⟨⟨?_, ?_, ?_⟩, ⟨?_, ?_⟩, ?_⟩ <;> apply disjoint_keys <;> intro key
    · exact shape.live key
    · exact (shape.t1_ghosts key).imp_right And.left
    · exact (shape.t1_ghosts key).imp_right And.right
    · exact (shape.t2_ghosts key).imp_right And.left
    · exact (shape.t2_ghosts key).imp_right And.right
    · exact shape.ghosts key
  · have within := stored_within_pool inv.pool
    rw [inv.numBlocks] at within
    simpa [CachePolicy.storedKeys, OrderedMap.keys_length] using within
  · exact inv.arc.b1_size.trans_eq inv.capacity
  · exact inv.arc.b2_size.trans_eq inv.capacity
  · exact inv.arc.target_low
  · have within := inv.arc.target_high
    rw [inv.capacity, inv.rounding] at within
    exact within kept
  · intro key block stored pending
    rw [OrderedMap.mem_keys_iff, Option.isSome_iff_ne_none]
    intro absent
    rw [ARCCachePolicy.get, absent, Option.none_or] at stored
    have := shape.filled key block stored
    omega
  · exact fun keys => touch_divisors_pos _ _

/-- In doubles the representation is kept for every pool they can count. -/
theorem doubles_represented {params : CpuManagerParams} {history : CpuHistory ARCCachePolicy}
    (countable : params.numBlocks ≤ 2 ^ 53)
    (reached : CpuHistory.Reached params (ARCCachePolicy.new params.numBlocks doubles) history) :
    Represented params.numBlocks history.manager.policy :=
  history_represented (round_double_nat countable) reached

/-- Every history of a manager with ARC, whose capacity is the size of the pool, keeps
the representation in rational arithmetic. -/
theorem arc_represented {params : CpuManagerParams} {history : CpuHistory ARCCachePolicy}
    (reached : CpuHistory.Reached params (ARCCachePolicy.new params.numBlocks .exact) history) :
    Represented params.numBlocks history.manager.policy :=
  history_represented rfl reached

/-- Two blocks: one key is pending while another was evicted to a ghost list and touched. -/
theorem arc_represented_after_eviction :
    ∃ history : CpuHistory ARCCachePolicy,
      CpuHistory.Reached { numBlocks := 2 } (ARCCachePolicy.new 2 .exact) history ∧
        (history.manager.policy.t1.keys, history.manager.policy.t2.keys,
          history.manager.policy.b1.keys) = ([⟨[9], 0⟩], [⟨[8], 0⟩], [⟨[7], 0⟩]) ∧
        Represented 2 history.manager.policy := by
  have replayed : (EventRuns.replay CpuHistory.apply (fun _ _ => True)
      (CpuHistory.start { numBlocks := 2 } (ARCCachePolicy.new 2 .exact))
      [.prepareStore [⟨[7], 0⟩, ⟨[8], 0⟩] false, .completeStore [⟨[7], 0⟩, ⟨[8], 0⟩] true,
        .touch [⟨[8], 0⟩], .prepareStore [⟨[9], 0⟩] false, .touch [⟨[7], 0⟩]]).map
      (fun history => (history.manager.policy.t1.keys, history.manager.policy.t2.keys,
        history.manager.policy.b1.keys)) = some ([⟨[9], 0⟩], [⟨[8], 0⟩], [⟨[7], 0⟩]) := by
    decide +kernel
  obtain ⟨history, reached, seen⟩ := EventRuns.exists_of_replay replayed
  exact ⟨history, reached, seen, @arc_represented { numBlocks := 2 } _ reached⟩

end KvOffload.ArcRepresentation
