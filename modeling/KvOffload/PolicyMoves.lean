import KvOffload.CpuManager

/-!
# Moves of a cache policy

Every operation of the CPU manager is a sequence of a few moves of its policy, with
the blocks that leave the policy going back to the pool. What a move can do is said
once here; what holds over whole runs is then proved move by move. The keys of a
store need not be distinct: a key that is entered twice is pending the second time.
-/

namespace KvOffload.PolicyMoves

open KvOffload KvOffload.Base KvOffload.PolicyInterface KvOffload.CpuManager

set_option autoImplicit false

/-- `release` makes a block idle: its store was completed, or its last load. -/
inductive Move where
  | touch (keys : List OffloadKey)
  | reserve (key : OffloadKey)
  | evict (count : Nat) (guarded : List OffloadKey) (victims : Victims)
  | discard (key : OffloadKey)
  | pin (key : OffloadKey)
  | recount (key : OffloadKey)
  | release (key : OffloadKey)

namespace Move

/-- Blocks taken from the pool. -/
def reserved : Move → Nat
  | reserve _ => 1
  | _ => 0

/-- Blocks given back to the pool. -/
def dropped : Move → Nat
  | evict _ _ victims => victims.length
  | discard _ => 1
  | _ => 0

def released : Move → List OffloadKey
  | release key => [key]
  | _ => []

end Move

section Moves

variable {P : Type} [CachePolicy P]

open CachePolicy

inductive Moved : P → Move → P → Prop where
  | touch {policy : P} (keys : List OffloadKey) :
      Moved policy (.touch keys) (touch policy keys)
  | reserve {policy : P} {key : OffloadKey} (blockId : Nat)
      (unready : ∀ block, get policy key = some block → block.refCnt < 0) :
      Moved policy (.reserve key) (insert policy key (BlockStatus.new blockId))
  | evict {policy after : P} {count : Nat} {guarded : List OffloadKey} {victims : Victims}
      (evicted : evict policy count guarded = .ok (some (victims, after))) :
      Moved policy (.evict count guarded victims) after
  | discard {policy after : P} {key : OffloadKey} {block : BlockStatus}
      (stored : get policy key = some block) (pending : block.refCnt < 0)
      (removed : remove policy key = .ok after) : Moved policy (.discard key) after
  | pin {policy held : P} {key : OffloadKey} {block : BlockStatus}
      (stored : get policy key = some block) (idle : block.refCnt = 0)
      (marked : markNonEvictable policy key = .ok held) :
      Moved policy (.pin key) (setRefCnt held key 1)
  | recount {policy : P} {key : OffloadKey} {block : BlockStatus} {refCnt : Int}
      (stored : get policy key = some block) (held : 0 < block.refCnt) (stillHeld : 0 < refCnt) :
      Moved policy (.recount key) (setRefCnt policy key refCnt)
  | release {policy : P} {key : OffloadKey} {block : BlockStatus}
      (stored : get policy key = some block) (busy : block.refCnt ≠ 0) :
      Moved policy (.release key) (markEvictable (setRefCnt policy key 0) key)

def Moves : P → List Move → P → Prop
  | policy, [], after => after = policy
  | policy, move :: moves, after => ∃ middle, Moved policy move middle ∧ Moves middle moves after

theorem moves_append {policy middle after : P} {first second : List Move}
    (left : Moves policy first middle) (right : Moves middle second after) :
    Moves policy (first ++ second) after := by
  induction first generalizing policy with
  | nil =>
      obtain rfl := left
      exact right
  | cons move rest ih =>
      obtain ⟨next, moved, later⟩ := left
      exact ⟨next, moved, ih later⟩

theorem moves_one {policy after : P} {move : Move} (moved : Moved policy move after) :
    Moves policy [move] after := ⟨after, moved, rfl⟩

/-- What every move preserves, a sequence of moves preserves. -/
theorem moves_keep {Inv : P → Prop} {allowed : Move → Prop}
    (step : ∀ policy move after, Inv policy → allowed move → Moved policy move after → Inv after)
    {policy after : P} {moves : List Move} (inv : Inv policy)
    (all : ∀ move ∈ moves, allowed move) (moved : Moves policy moves after) : Inv after := by
  induction moves generalizing policy with
  | nil =>
      obtain rfl := moved
      exact inv
  | cons move rest ih =>
      obtain ⟨middle, first, later⟩ := moved
      exact ih (step _ _ _ inv (all move List.mem_cons_self) first)
        (fun other member => all other (List.mem_cons_of_mem _ member)) later

end Moves

/-- A policy with an invariant that every move preserves and that is enough to know
what each move does to the blocks. -/
class TrackedPolicy (P : Type) [CachePolicy P] [LawfulCachePolicy P] where
  Tracked : P → Prop
  lawful : ∀ {policy : P}, Tracked policy → LawfulCachePolicy.Inv policy
  tracked_clear : ∀ policy : P, Tracked (CachePolicy.clear policy)
  tracked_moved : ∀ {policy after : P} {move : Move}, Tracked policy →
    Moved policy move after → Tracked after
  get_reserve : ∀ {policy : P} {key : OffloadKey} (blockId : Nat), Tracked policy →
    (∀ block, CachePolicy.get policy key = some block → block.refCnt < 0) → ∀ other,
      CachePolicy.get (CachePolicy.insert policy key (BlockStatus.new blockId)) other =
        if other = key then some (BlockStatus.new blockId) else CachePolicy.get policy other

section Effects

variable {P : Type} [CachePolicy P] [LawfulCachePolicy P] [TrackedPolicy P]

open TrackedPolicy

theorem tracked_moves {policy after : P} {moves : List Move} (tracked : Tracked policy)
    (moved : Moves policy moves after) : Tracked after := by
  induction moves generalizing policy with
  | nil =>
      obtain rfl := moved
      exact tracked
  | cons move rest ih =>
      obtain ⟨middle, first, later⟩ := moved
      exact ih (tracked_moved tracked first) later

theorem evicted_outcome {policy after : P} (tracked : Tracked policy) {count : Nat}
    {guarded : List OffloadKey} {victims : Victims}
    (evicted : CachePolicy.evict policy count guarded = .ok (some (victims, after))) :
    EvictOutcome policy count guarded victims after := by
  rcases LawfulCachePolicy.evict_ok (lawful tracked) count guarded with
    failed | ⟨found, left, succeeded, _, outcome⟩
  · cases evicted.symm.trans failed
  · cases evicted.symm.trans succeeded
    exact outcome

theorem discarded_get {policy after : P} (tracked : Tracked policy) {key : OffloadKey}
    {block : BlockStatus} (stored : CachePolicy.get policy key = some block)
    (removed : CachePolicy.remove policy key = .ok after) (other : OffloadKey) :
    CachePolicy.get after other = if other = key then none else CachePolicy.get policy other := by
  obtain ⟨left, succeeded, _, getAfter⟩ := LawfulCachePolicy.remove_ok (lawful tracked) stored
  cases removed.symm.trans succeeded
  exact getAfter other

theorem pinned_get {policy held : P} (tracked : Tracked policy) {key : OffloadKey}
    {block : BlockStatus} (stored : CachePolicy.get policy key = some block)
    (idle : block.refCnt = 0) (marked : CachePolicy.markNonEvictable policy key = .ok held)
    (other : OffloadKey) :
    CachePolicy.get (CachePolicy.setRefCnt held key 1) other =
      if other = key then some (block.withRefCnt 1) else CachePolicy.get policy other := by
  obtain ⟨left, succeeded, _, getAfter⟩ :=
    LawfulCachePolicy.pin_ok (lawful tracked) stored idle
  cases marked.symm.trans succeeded
  exact getAfter other

theorem reserve_moves_absent {policy after : P} {keys : List OffloadKey}
    (tracked : Tracked policy) (moved : Moves policy (keys.map .reserve) after)
    (key : OffloadKey) :
    CachePolicy.get after key = none ↔ CachePolicy.get policy key = none ∧ key ∉ keys := by
  induction keys generalizing policy with
  | nil =>
      obtain rfl := moved
      simp
  | cons reserved rest ih =>
      obtain ⟨middle, first, later⟩ := moved
      rw [ih (tracked_moved tracked first) later]
      cases first with
      | reserve blockId unready =>
          rw [get_reserve blockId tracked unready]
          by_cases same : key = reserved <;> simp [same]

/-- Stored and filled. -/
def Ready (policy : P) (key : OffloadKey) : Prop :=
  ∃ block, CachePolicy.get policy key = some block ∧ 0 ≤ block.refCnt

/-- Which keys a move leaves ready. -/
def Move.readyAfter (before : OffloadKey → Prop) : Move → OffloadKey → Prop
  | evict _ _ victims, key => before key ∧ key ∉ victims.map Prod.fst
  | release released, key => before key ∨ key = released
  | _, key => before key

omit [LawfulCachePolicy P] [TrackedPolicy P] in
theorem ready_of_update {policy after : P} {key : OffloadKey} {update : Option BlockStatus}
    (getAfter : ∀ other, CachePolicy.get after other =
      if other = key then update else CachePolicy.get policy other) (other : OffloadKey) :
    Ready after other ↔
      if other = key then (∃ block, update = some block ∧ 0 ≤ block.refCnt)
      else Ready policy other := by
  unfold Ready
  rw [getAfter]
  split <;> rfl

theorem ready_moved {policy after : P} {move : Move} (tracked : Tracked policy)
    (moved : Moved policy move after) (key : OffloadKey) :
    Ready after key ↔ move.readyAfter (Ready policy) key := by
  cases moved with
  | touch keys =>
      simp only [Ready, Move.readyAfter, LawfulCachePolicy.get_touch (lawful tracked)]
  | @reserve reserved blockId unready =>
      rw [ready_of_update (get_reserve blockId tracked unready)]
      split
      · rename_i same
        subst same
        constructor
        · rintro ⟨block, isNew, ready⟩
          cases isNew
          simp at ready
        · rintro ⟨block, stored, ready⟩
          have := unready block stored
          omega
      · rfl
  | evict evicted =>
      have outcome := evicted_outcome tracked evicted
      simp only [Ready, Move.readyAfter, outcome.get_after]
      split
      · rename_i victim
        simp [victim]
      · rename_i spared
        simp [spared]
  | @discard _ discarded block stored pending removed =>
      rw [ready_of_update (discarded_get tracked stored removed)]
      split
      · rename_i same
        subst same
        constructor
        · rintro ⟨block, absent, _⟩
          cases absent
        · rintro ⟨other, found, ready⟩
          cases stored.symm.trans found
          omega
      · rfl
  | @pin held pinned block stored idle marked =>
      rw [ready_of_update (pinned_get tracked stored idle marked)]
      split
      · rename_i same
        subst same
        exact iff_of_true ⟨_, rfl, by simp⟩ ⟨block, stored, idle.ge⟩
      · rfl
  | @recount recounted block refCnt stored held stillHeld =>
      rw [ready_of_update (LawfulCachePolicy.get_recount (lawful tracked) stored)]
      split
      · rename_i same
        subst same
        exact iff_of_true ⟨_, rfl, stillHeld.le⟩ ⟨block, stored, held.le⟩
      · rfl
  | @release released block stored busy =>
      rw [ready_of_update (LawfulCachePolicy.get_release (lawful tracked) stored)]
      split
      · rename_i same
        exact iff_of_true ⟨_, rfl, by simp⟩ (.inr same)
      · rename_i different
        simp [Move.readyAfter, different]

theorem reserve_moves_ready {policy after : P} {keys : List OffloadKey}
    (tracked : Tracked policy) (moved : Moves policy (keys.map .reserve) after)
    (key : OffloadKey) : Ready after key ↔ Ready policy key := by
  induction keys generalizing policy with
  | nil =>
      obtain rfl := moved
      rfl
  | cons reserved rest ih =>
      obtain ⟨middle, first, later⟩ := moved
      exact (ih (tracked_moved tracked first) later).trans (ready_moved tracked first key)

/-- Keys that leave the policy give their blocks back, and only reserved keys enter. -/
theorem live_moved {policy after : P} {move : Move} (tracked : Tracked policy)
    (moved : Moved policy move after) :
    (CachePolicy.storedKeys after).length + move.dropped ≤
      (CachePolicy.storedKeys policy).length + move.reserved := by
  have lawfulBefore := lawful tracked
  have lawfulAfter := lawful (tracked_moved tracked moved)
  have stored := LawfulCachePolicy.mem_stored lawfulBefore
  have storedAfter := LawfulCachePolicy.mem_stored lawfulAfter
  have nodup := LawfulCachePolicy.stored_nodup lawfulBefore
  have nodupAfter := LawfulCachePolicy.stored_nodup lawfulAfter
  have kept : ∀ {gone : List OffloadKey} {entered : List OffloadKey},
      (gone ++ CachePolicy.storedKeys after).Nodup →
      (∀ key ∈ gone ++ CachePolicy.storedKeys after,
        key ∈ CachePolicy.storedKeys policy ++ entered) →
      (CachePolicy.storedKeys after).length + gone.length ≤
        (CachePolicy.storedKeys policy).length + entered.length := by
    intro gone entered distinct within
    have := (List.Nodup.subperm distinct within).length_le
    rw [List.length_append, List.length_append] at this
    omega
  have same : (∀ key, CachePolicy.get after key ≠ none → CachePolicy.get policy key ≠ none) →
      (CachePolicy.storedKeys after).length ≤ (CachePolicy.storedKeys policy).length := by
    intro within
    apply @kept [] [] nodupAfter
    intro key member
    rw [List.append_nil, stored, Option.isSome_iff_ne_none]
    apply within
    rwa [List.nil_append, storedAfter, Option.isSome_iff_ne_none] at member
  cases moved with
  | touch keys =>
      apply same
      intro key
      rw [LawfulCachePolicy.get_touch lawfulBefore]
      exact id
  | @reserve reserved blockId unready =>
      apply @kept [] [reserved] nodupAfter
      intro key member
      rw [List.nil_append, storedAfter, get_reserve blockId tracked unready] at member
      rw [List.mem_append, stored, List.mem_singleton]
      split at member
      · rename_i entered
        exact .inr entered
      · exact .inl member
  | @evict _ count guarded victims evicted =>
      have outcome := evicted_outcome tracked evicted
      rw [Move.dropped, ← List.length_map (f := Prod.fst)]
      apply @kept (victims.map Prod.fst) []
      · rw [List.nodup_append]
        refine ⟨outcome.distinct, nodupAfter, ?_⟩
        rintro key victim other member rfl
        rw [storedAfter, outcome.get_after, if_pos victim] at member
        cases member
      · intro key member
        rw [List.append_nil, stored]
        rcases List.mem_append.mp member with victim | member
        · obtain ⟨entry, entryMem, rfl⟩ := List.mem_map.mp victim
          rw [(outcome.idle entry entryMem).1]
          rfl
        · rw [storedAfter, outcome.get_after] at member
          split at member
          · cases member
          · exact member
  | @discard _ key block found pending removed =>
      have getAfter := discarded_get tracked found removed
      apply @kept [key] []
      · rw [List.singleton_append, List.nodup_cons]
        refine ⟨?_, nodupAfter⟩
        rw [storedAfter, getAfter, if_pos rfl]
        simp
      · intro other member
        rw [List.append_nil, stored]
        rcases List.mem_append.mp member with here | member
        · rw [List.mem_singleton.mp here, found]
          rfl
        · rw [storedAfter, getAfter] at member
          split at member
          · cases member
          · exact member
  | @pin held key block found idle marked =>
      apply same
      intro other
      rw [pinned_get tracked found idle marked]
      split
      · rename_i here
        simp [here, found]
      · exact id
  | @recount key block refCnt found held stillHeld =>
      apply same
      intro other
      rw [LawfulCachePolicy.get_recount lawfulBefore found]
      split
      · rename_i here
        simp [here, found]
      · exact id
  | @release key block found busy =>
      apply same
      intro other
      rw [LawfulCachePolicy.get_release lawfulBefore found]
      split
      · rename_i here
        simp [here, found]
      · exact id

end Effects

end KvOffload.PolicyMoves
