import KvOffload.ArcRepresentation
import KvOffload.LruRecency
import KvOffload.QueueBatches

/-!
# Eviction order

Both policies evict from a queue that the state fixes: LRU its idle keys by last use, ARC
the idle keys of `t1` as far down as the target allows and then those of `t2`. A batch is
the head of the queue, or nothing when the queue is shorter.
-/

namespace KvOffload.EvictionOrder

open KvOffload KvOffload.Base KvOffload.PolicyInterface KvOffload.LruPolicy
open KvOffload.ArcPolicy KvOffload.PolicyMoves KvOffload.ArcRepresentation
open KvOffload.QueueBatches

set_option autoImplicit false

/-- The entries a scan stops at. -/
def idleEntries (guarded : List OffloadKey) (entries : Victims) : Victims :=
  entries.filter fun entry => entry.2.refCnt = 0 ∧ entry.1 ∉ guarded

theorem idle_without (guarded : List OffloadKey) {entries : Victims}
    (nodup : (entries.map Prod.fst).Nodup) {first : OffloadKey × BlockStatus} {rest : Victims}
    (idle : idleEntries guarded entries = first :: rest) :
    idleEntries guarded (entries.filter fun entry => entry.1 ≠ first.1) = rest := by
  have sublist : List.Sublist (first :: rest) entries := by
    rw [← idle]
    exact List.filter_sublist
  have distinct := nodup.sublist (sublist.map Prod.fst)
  rw [List.map_cons, List.nodup_cons] at distinct
  have swap : idleEntries guarded (entries.filter fun entry => entry.1 ≠ first.1) =
      (idleEntries guarded entries).filter fun entry => entry.1 ≠ first.1 := by
    unfold idleEntries
    rw [List.filter_filter, List.filter_filter]
    congr 1
    funext entry
    exact Bool.and_comm _ _
  rw [swap, idle, List.filter_cons_of_neg (by simp), List.filter_eq_self]
  intro entry member
  have other : entry.1 ≠ first.1 := by
    intro same
    exact distinct.1 (same ▸ List.mem_map_of_mem member)
  simpa using other

section Arc

open ARCCachePolicy

variable {policy : ARCCachePolicy}

/-- How many of `t1` go before the target stops the scan. -/
def t1Quota (policy : ARCCachePolicy) : Nat :=
  ((policy.t1.size : Int) + 1 - policy.targetT1Size.floor).toNat

def tagged (fromT1 : Bool) (entries : Victims) : List ((OffloadKey × BlockStatus) × Bool) :=
  entries.map fun entry => (entry, fromT1)

/-- What the selection loop finds, in its order. -/
def selectionOrder (quota : Nat) (t1Idle t2Idle : Victims) :
    List ((OffloadKey × BlockStatus) × Bool) :=
  tagged true (t1Idle.take quota) ++ tagged false t2Idle

def arcOrder (guarded : List OffloadKey) (policy : ARCCachePolicy) :
    List ((OffloadKey × BlockStatus) × Bool) :=
  selectionOrder (t1Quota policy) (idleEntries guarded policy.t1.entries)
    (idleEntries guarded policy.t2.entries)

theorem next_candidate_none {guarded : List OffloadKey} {scan : Victims}
    (idle : idleEntries guarded scan = []) : nextCandidate guarded scan = none := by
  induction scan with
  | nil => rfl
  | cons entry rest ih =>
      unfold idleEntries at idle ih
      rw [List.filter_cons] at idle
      split at idle
      · cases idle
      · rename_i busy
        unfold nextCandidate
        rw [if_neg (by simpa using busy)]
        exact ih idle

theorem next_candidate_some {guarded : List OffloadKey} {scan rest : Victims}
    {first : OffloadKey × BlockStatus} (idle : idleEntries guarded scan = first :: rest) :
    ∃ left, nextCandidate guarded scan = some (first, left) ∧ idleEntries guarded left = rest := by
  induction scan with
  | nil => cases idle
  | cons entry scan ih =>
      unfold nextCandidate
      unfold idleEntries at idle ih
      rw [List.filter_cons] at idle
      split at idle
      · rename_i stops
        cases idle
        exact ⟨scan, if_pos (by simpa using stops), rfl⟩
      · rename_i busy
        rw [if_neg (by simpa using busy)]
        exact ih idle

theorem select_candidates_eq (target : Int) (guarded : List OffloadKey) (count : Nat)
    (virtualT1Size : Int) (t1Iter t2Iter : Victims) :
    selectCandidates target guarded count virtualT1Size t1Iter t2Iter =
      let order := selectionOrder (virtualT1Size + 1 - target).toNat
        (idleEntries guarded t1Iter) (idleEntries guarded t2Iter)
      if order.length < count then none else some (order.take count) := by
  induction count generalizing virtualT1Size t1Iter t2Iter with
  | zero => simp [selectCandidates]
  | succ count ih =>
      unfold selectCandidates
      by_cases reaches : target ≤ virtualT1Size
      · obtain ⟨quota, quota_eq⟩ : ∃ quota : Nat, virtualT1Size - target = quota :=
          ⟨_, (Int.toNat_of_nonneg (by omega)).symm⟩
        have now : (virtualT1Size + 1 - target).toNat = quota + 1 := by omega
        have next : (virtualT1Size - 1 + 1 - target).toNat = quota := by omega
        simp only [if_pos reaches]
        cases t1Idle : idleEntries guarded t1Iter with
        | cons first rest =>
            obtain ⟨left, found, leftIdle⟩ := next_candidate_some t1Idle
            simp only [found, ih, leftIdle, now, next, selectionOrder, tagged, List.take_succ_cons,
              List.map_cons, List.cons_append, List.length_cons, Nat.add_lt_add_iff_right]
            split <;> rfl
        | nil =>
            -- an exhausted `t1` is left for good
            rw [next_candidate_none t1Idle]
            cases t2Idle : idleEntries guarded t2Iter with
            | nil => simp [next_candidate_none t2Idle, selectionOrder, tagged]
            | cons first rest =>
                obtain ⟨left, found, leftIdle⟩ := next_candidate_some t2Idle
                have none : idleEntries guarded [] = [] := rfl
                simp only [found, ih, leftIdle, none, selectionOrder, tagged, List.take_nil,
                  List.map_nil, List.nil_append, List.map_cons, List.length_cons,
                  List.take_succ_cons, Nat.add_lt_add_iff_right]
                split <;> rfl
      · have spent : (virtualT1Size + 1 - target).toNat = 0 := by omega
        simp only [if_neg reaches, spent]
        cases t2Idle : idleEntries guarded t2Iter with
        | nil => simp [next_candidate_none t2Idle, selectionOrder, tagged]
        | cons first rest =>
            obtain ⟨left, found, leftIdle⟩ := next_candidate_some t2Idle
            simp only [found, ih, leftIdle, spent, selectionOrder, tagged, List.take_zero,
              List.map_nil, List.nil_append, List.map_cons, List.length_cons,
              List.take_succ_cons, Nat.add_lt_add_iff_right]
            split <;> rfl

theorem arc_evict_eq (guarded : List OffloadKey) (count : Nat) :
    policy.evict count guarded =
      if count = 0 then some ([], policy)
      else if (arcOrder guarded policy).length < count then none
      else some (((arcOrder guarded policy).take count).map Prod.fst,
        trimGhosts (((arcOrder guarded policy).take count).foldl dropCandidate policy)) := by
  have selected : selectCandidates policy.targetT1Size.floor guarded count policy.t1.size
      policy.t1.entries policy.t2.entries =
        if (arcOrder guarded policy).length < count then none
        else some ((arcOrder guarded policy).take count) :=
    select_candidates_eq _ guarded count _ _ _
  unfold ARCCachePolicy.evict
  rw [selected]
  by_cases short : (arcOrder guarded policy).length < count
  · rw [if_pos short, if_pos short]
  · rw [if_neg short, if_neg short]

theorem arc_order_idle {guarded : List OffloadKey}
    {candidate : (OffloadKey × BlockStatus) × Bool} (member : candidate ∈ arcOrder guarded policy) :
    candidate.1 ∈ idleEntries guarded
      (if candidate.2 then policy.t1.entries else policy.t2.entries) := by
  rcases List.mem_append.mp member with inT1 | inT2
  · obtain ⟨entry, taken, rfl⟩ := List.mem_map.mp inT1
    exact List.mem_of_mem_take taken
  · obtain ⟨entry, idle, rfl⟩ := List.mem_map.mp inT2
    exact idle

theorem arc_order_present {guarded : List OffloadKey}
    {candidate : (OffloadKey × BlockStatus) × Bool} (member : candidate ∈ arcOrder guarded policy) :
    if candidate.2 then policy.t1.get? candidate.1.1 ≠ none
      else policy.t2.get? candidate.1.1 ≠ none := by
  have idle := List.mem_of_mem_filter (arc_order_idle member)
  split
  · rename_i fromT1
    rw [if_pos fromT1] at idle
    rw [(policy.t1.get_eq_some_iff _ candidate.1.2).mpr idle]
    exact Option.some_ne_none _
  · rename_i fromT2
    rw [if_neg fromT2] at idle
    rw [(policy.t2.get_eq_some_iff _ candidate.1.2).mpr idle]
    exact Option.some_ne_none _

theorem arc_order_distinct (live : LiveListsDisjoint policy) (guarded : List OffloadKey) :
    ((arcOrder guarded policy).map fun candidate => candidate.1.1).Nodup := by
  have keys : (arcOrder guarded policy).map (fun candidate => candidate.1.1) =
      (((idleEntries guarded policy.t1.entries).take (t1Quota policy)) ++
        idleEntries guarded policy.t2.entries).map Prod.fst := by
    simp [arcOrder, selectionOrder, tagged, Function.comp_def]
  have within : List.Sublist (((idleEntries guarded policy.t1.entries).take (t1Quota policy)) ++
      idleEntries guarded policy.t2.entries) (policy.t1.entries ++ policy.t2.entries) :=
    ((List.take_sublist _ _).trans List.filter_sublist).append List.filter_sublist
  rw [keys]
  apply List.Nodup.sublist (within.map Prod.fst)
  simpa [OrderedMap.keys] using live_keys_nodup live

theorem size_erase_present {κ ν : Type} [DecidableEq κ] (map : OrderedMap κ ν) {key : κ}
    (present : map.get? key ≠ none) : (map.erase key).size + 1 = map.size := by
  have member : key ∈ map.keys := (map.mem_keys_iff key).mpr (Option.isSome_iff_ne_none.mpr present)
  have positive := List.length_pos_of_mem member
  have differs : (fun other => decide (other ≠ key)) = fun other => other != key := by
    funext other
    by_cases same : other = key <;> simp [same]
  rw [← OrderedMap.keys_length, OrderedMap.keys_erase, differs, ← map.keys_nodup.erase_eq_filter,
    List.length_erase_of_mem member, ← OrderedMap.keys_length]
  omega

theorem arc_order_step {guarded : List OffloadKey}
    {first : (OffloadKey × BlockStatus) × Bool} {rest : List ((OffloadKey × BlockStatus) × Bool)}
    (order : arcOrder guarded policy = first :: rest) :
    arcOrder guarded (policy.dropCandidate first) = rest := by
  have present := arc_order_present (order ▸ List.mem_cons_self)
  unfold arcOrder selectionOrder at order
  cases t1Order : (idleEntries guarded policy.t1.entries).take (t1Quota policy) with
  | cons entry others =>
      rw [t1Order] at order
      cases order
      have quota_pos : t1Quota policy ≠ 0 := by
        intro zero
        rw [zero, List.take_zero] at t1Order
        cases t1Order
      obtain ⟨quota, quota_eq⟩ := Nat.exists_eq_succ_of_ne_zero quota_pos
      cases t1Idle : idleEntries guarded policy.t1.entries with
      | nil =>
          rw [t1Idle, List.take_nil] at t1Order
          cases t1Order
      | cons head tail =>
          rw [t1Idle, quota_eq, List.take_succ_cons] at t1Order
          cases t1Order
          have smaller := size_erase_present policy.t1 (by simpa using present)
          have less : t1Quota (policy.dropCandidate (entry, true)) = quota := by
            unfold t1Quota at quota_eq ⊢
            simp only [ARCCachePolicy.dropCandidate, if_true]
            omega
          have left := idle_without guarded policy.t1.nodup t1Idle
          unfold arcOrder selectionOrder
          rw [less]
          simp only [ARCCachePolicy.dropCandidate, if_true, OrderedMap.erase, left]
          rfl
  | nil =>
      rw [t1Order] at order
      cases t2Idle : idleEntries guarded policy.t2.entries with
      | nil =>
          rw [t2Idle] at order
          cases order
      | cons head tail =>
          rw [t2Idle] at order
          cases order
          have left := idle_without guarded policy.t2.nodup t2Idle
          have same : t1Quota (policy.dropCandidate (head, false)) = t1Quota policy := rfl
          unfold arcOrder selectionOrder
          rw [same]
          simp only [ARCCachePolicy.dropCandidate, Bool.false_eq_true, if_false, OrderedMap.erase,
            left, t1Order]
          rfl

/-- The ghost entries that evictions from one live list add. -/
def pushGhosts (fromT1 : Bool) (found : List ((OffloadKey × BlockStatus) × Bool))
    (ghosts : OrderedMap OffloadKey Unit) : OrderedMap OffloadKey Unit :=
  found.foldl (fun ghosts candidate =>
    if candidate.2 = fromT1 then ghosts.set candidate.1.1 () else ghosts) ghosts

theorem push_ghosts_entries (fromT1 : Bool) (found : List ((OffloadKey × BlockStatus) × Bool))
    {ghosts : OrderedMap OffloadKey Unit}
    (distinct : (found.map fun candidate => candidate.1.1).Nodup)
    (fresh : ∀ candidate ∈ found, ghosts.get? candidate.1.1 = none) :
    (pushGhosts fromT1 found ghosts).entries = ghosts.entries ++
      (found.filter fun candidate => candidate.2 = fromT1).map fun candidate =>
        (candidate.1.1, ()) := by
  induction found generalizing ghosts with
  | nil => simp [pushGhosts]
  | cons candidate rest ih =>
      rw [List.map_cons, List.nodup_cons] at distinct
      have absent := fresh candidate List.mem_cons_self
      unfold pushGhosts
      rw [List.foldl_cons]
      by_cases listed : candidate.2 = fromT1
      · rw [if_pos listed, List.filter_cons_of_pos (by simpa using listed)]
        have grown : (ghosts.set candidate.1.1 ()).entries =
            ghosts.entries ++ [(candidate.1.1, ())] := by
          unfold OrderedMap.set
          rw [dif_pos absent]
          rfl
        have later := @ih (ghosts.set candidate.1.1 ()) distinct.2 (by
          intro other member
          have different : other.1.1 ≠ candidate.1.1 := by
            intro same
            exact distinct.1 (same ▸ List.mem_map_of_mem member)
          rw [OrderedMap.get_set_of_ne _ _ different]
          exact fresh other (List.mem_cons_of_mem _ member))
        unfold pushGhosts at later
        rw [later, grown, List.map_cons, List.append_assoc]
        rfl
      · rw [if_neg listed, List.filter_cons_of_neg (by simpa using listed)]
        exact ih distinct.2 fun other member => fresh other (List.mem_cons_of_mem _ member)

/-- What a row of evictions does to each list, apart from the others. -/
structure Dropped (found : List ((OffloadKey × BlockStatus) × Bool))
    (policy after : ARCCachePolicy) : Prop where
  cacheCapacity : after.cacheCapacity = policy.cacheCapacity
  rounding : after.rounding = policy.rounding
  target : after.targetT1Size = policy.targetT1Size
  t1 : after.t1 = found.foldl (fun live candidate =>
    if candidate.2 then live.erase candidate.1.1 else live) policy.t1
  t2 : after.t2 = found.foldl (fun live candidate =>
    if candidate.2 then live else live.erase candidate.1.1) policy.t2
  b1 : after.b1 = pushGhosts true found policy.b1
  b2 : after.b2 = pushGhosts false found policy.b2

theorem drop_candidates_dropped (found : List ((OffloadKey × BlockStatus) × Bool))
    (policy : ARCCachePolicy) : Dropped found policy (found.foldl dropCandidate policy) := by
  induction found generalizing policy with
  | nil => exact ⟨rfl, rfl, rfl, rfl, rfl, rfl, rfl⟩
  | cons candidate rest ih =>
      obtain ⟨entry, fromT1⟩ := candidate
      have later := ih (policy.dropCandidate (entry, fromT1))
      cases fromT1 with
      | true =>
          exact ⟨later.cacheCapacity, later.rounding, later.target, later.t1, later.t2, later.b1,
            later.b2⟩
      | false =>
          exact ⟨later.cacheCapacity, later.rounding, later.target, later.t1, later.t2, later.b1,
            later.b2⟩

theorem trimmed_ghosts (capacity : Nat) (fromT1 : Bool)
    (found : List ((OffloadKey × BlockStatus) × Bool)) {ghosts : OrderedMap OffloadKey Unit}
    (distinct : (found.map fun candidate => candidate.1.1).Nodup)
    (fresh : ∀ candidate ∈ found, ghosts.get? candidate.1.1 = none) :
    (pushGhosts fromT1 found (ghosts.dropOldest (ghosts.size - capacity))).dropOldest
        ((pushGhosts fromT1 found (ghosts.dropOldest (ghosts.size - capacity))).size - capacity) =
      (pushGhosts fromT1 found ghosts).dropOldest
        ((pushGhosts fromT1 found ghosts).size - capacity) := by
  have trimmed : ∀ candidate ∈ found,
      (ghosts.dropOldest (ghosts.size - capacity)).get? candidate.1.1 = none := by
    intro candidate member
    exact OrderedMap.get_drop_oldest_of_none _ _ (fresh candidate member)
  apply OrderedMap.ext_entries
  have once := rtake_rtake_append capacity ghosts.entries
    ((found.filter fun candidate => candidate.2 = fromT1).map fun candidate =>
      (candidate.1.1, ()))
  unfold List.rtake at once
  unfold OrderedMap.dropOldest OrderedMap.size
  simp only
  rw [push_ghosts_entries fromT1 found distinct fresh]
  have pushed := push_ghosts_entries fromT1 found distinct trimmed
  unfold OrderedMap.dropOldest OrderedMap.size at pushed
  rw [pushed]
  exact once

theorem trim_once (shape : ArcShape policy) {guarded : List OffloadKey}
    {first : (OffloadKey × BlockStatus) × Bool}
    {taken left : List ((OffloadKey × BlockStatus) × Bool)}
    (order : arcOrder guarded policy = first :: (taken ++ left)) :
    trimGhosts (taken.foldl dropCandidate (trimGhosts (policy.dropCandidate first))) =
      trimGhosts (taken.foldl dropCandidate (policy.dropCandidate first)) := by
  have present := arc_order_present (order ▸ List.mem_cons_self)
  have after := drop_candidate_shape shape present
  have step := arc_order_step order
  generalize policy.dropCandidate first = dropped at after step ⊢
  have distinct : (taken.map fun candidate => candidate.1.1).Nodup := by
    have all := arc_order_distinct after.live guarded
    rw [step, List.map_append] at all
    exact (List.nodup_append.mp all).1
  have unghosted : ∀ candidate ∈ taken,
      dropped.b1.get? candidate.1.1 = none ∧ dropped.b2.get? candidate.1.1 = none := by
    intro candidate member
    have stored := @arc_order_present dropped guarded candidate
      (step ▸ List.mem_append_left left member)
    split at stored
    · exact (after.t1_ghosts _).resolve_left stored
    · exact (after.t2_ghosts _).resolve_left stored
  have trimmed := drop_candidates_dropped taken (trimGhosts dropped)
  have plain := drop_candidates_dropped taken dropped
  generalize taken.foldl dropCandidate (trimGhosts dropped) = one at trimmed ⊢
  generalize taken.foldl dropCandidate dropped = other at plain ⊢
  have capacity : one.cacheCapacity = other.cacheCapacity :=
    trimmed.cacheCapacity.trans plain.cacheCapacity.symm
  have b1 := trimmed_ghosts dropped.cacheCapacity true taken distinct
    fun candidate member => (unghosted candidate member).1
  have b2 := trimmed_ghosts dropped.cacheCapacity false taken distinct
    fun candidate member => (unghosted candidate member).2
  unfold ARCCachePolicy.trimGhosts
  rw [capacity, trimmed.rounding.trans plain.rounding.symm,
    trimmed.target.trans plain.target.symm, trimmed.t1.trans plain.t1.symm,
    trimmed.t2.trans plain.t2.symm, trimmed.b1, trimmed.b2, plain.b1, plain.b2,
    plain.cacheCapacity]
  exact congrArg₂ (fun b1 b2 => ARCCachePolicy.mk _ _ _ _ b1 b2 other.rounding) b1 b2

/-- The queue ARC evicts from. -/
def arcQueue (guarded : List OffloadKey) :
    Queue ARCCachePolicy ((OffloadKey × BlockStatus) × Bool) where
  order := arcOrder guarded
  drop := dropCandidate
  finish := trimGhosts
  Inv := ArcShape
  inv_step shape order :=
    trim_ghosts_shape (drop_candidate_shape shape (arc_order_present (order ▸ List.mem_cons_self)))
  order_step _ order := arc_order_step order
  finish_once shape order := trim_once shape order

theorem arc_evict_batch (guarded : List OffloadKey) (count : Nat) :
    policy.evict count guarded =
      ((arcQueue guarded).batch count policy).map
        fun evicted => (evicted.1.map Prod.fst, evicted.2) := by
  rw [arc_evict_eq, Queue.batch]
  by_cases nothing : count = 0
  · simp [nothing]
  · by_cases short : (arcOrder guarded policy).length < count
    · simp [arcQueue, nothing, short]
    · simp [arcQueue, nothing, short]

end Arc

section Lru

open LRUCachePolicy

variable {policy : LRUCachePolicy}

def entryOf (blocks : OrderedMap OffloadKey BlockStatus) (key : OffloadKey) :
    Option (OffloadKey × BlockStatus) :=
  (blocks.get? key).map fun block => (key, block)

/-- The evictable keys with their blocks, the least recently used first. -/
def lruEntries (policy : LRUCachePolicy) : Victims :=
  policy.evictableBlocks.keys.filterMap (entryOf policy.blocks)

def lruOrder (guarded : List OffloadKey) (policy : LRUCachePolicy) : Victims :=
  idleEntries guarded (lruEntries policy)

theorem entries_keys (blocks : OrderedMap OffloadKey BlockStatus) (keys : List OffloadKey) :
    List.Sublist ((keys.filterMap (entryOf blocks)).map Prod.fst) keys := by
  induction keys with
  | nil => exact List.Sublist.refl _
  | cons key rest ih =>
      cases found : blocks.get? key with
      | none =>
          rw [List.filterMap_cons_none (by simp [entryOf, found])]
          exact ih.cons key
      | some block =>
          rw [List.filterMap_cons_some (b := (key, block)) (by simp [entryOf, found])]
          exact ih.cons_cons key

theorem entries_without (blocks : OrderedMap OffloadKey BlockStatus) (removed : OffloadKey)
    (keys : List OffloadKey) :
    (keys.filter fun key => key ≠ removed).filterMap (entryOf (blocks.erase removed)) =
      (keys.filterMap (entryOf blocks)).filter fun entry => entry.1 ≠ removed := by
  induction keys with
  | nil => rfl
  | cons key rest ih =>
      by_cases same : key = removed
      · subst same
        rw [List.filter_cons_of_neg (by simp), ih]
        cases found : blocks.get? key with
        | none => rw [List.filterMap_cons_none (by simp [entryOf, found])]
        | some block =>
            rw [List.filterMap_cons_some (b := (key, block)) (by simp [entryOf, found]),
              List.filter_cons_of_neg (by simp)]
      · rw [List.filter_cons_of_pos (by simpa using same)]
        have kept : (blocks.erase removed).get? key = blocks.get? key :=
          OrderedMap.get_erase_of_ne _ same
        cases found : blocks.get? key with
        | none =>
            rw [List.filterMap_cons_none (by simp [entryOf, kept, found]),
              List.filterMap_cons_none (by simp [entryOf, found])]
            exact ih
        | some block =>
            rw [List.filterMap_cons_some (b := (key, block)) (by simp [entryOf, kept, found]),
              List.filterMap_cons_some (b := (key, block)) (by simp [entryOf, found]),
              List.filter_cons_of_pos (by simpa using same), ih]

theorem candidates_eq {blocks : OrderedMap OffloadKey BlockStatus} (guarded scan : List OffloadKey)
    (idle : ∀ key ∈ scan, ∃ block, blocks.get? key = some block ∧ block.refCnt = 0)
    (count : Nat) :
    candidates blocks guarded count scan =
      .ok ((idleEntries guarded (scan.filterMap (entryOf blocks))).take count) := by
  induction scan generalizing count with
  | nil => cases count <;> rfl
  | cons key rest ih =>
      cases count with
      | zero => simp [candidates]
      | succ count =>
          obtain ⟨block, stored, zero⟩ := idle key List.mem_cons_self
          have later := ih fun other member => idle other (List.mem_cons_of_mem _ member)
          rw [List.filterMap_cons_some (b := (key, block)) (by simp [entryOf, stored])]
          unfold candidates
          by_cases skip : key ∈ guarded
          · rw [if_pos skip, later]
            unfold idleEntries
            rw [List.filter_cons_of_neg (by simp [skip])]
          · rw [if_neg skip, stored]
            unfold idleEntries at later ⊢
            rw [List.filter_cons_of_pos (by simp [skip, zero]), List.take_succ_cons]
            simp [zero, later]

theorem lru_order_step {guarded : List OffloadKey}
    {first : OffloadKey × BlockStatus} {rest : Victims}
    (order : lruOrder guarded policy = first :: rest) :
    lruOrder guarded (policy.dropVictim first) = rest := by
  have nodup : ((lruEntries policy).map Prod.fst).Nodup :=
    policy.evictableBlocks.keys_nodup.sublist (entries_keys _ _)
  have left := idle_without guarded nodup order
  unfold lruOrder lruEntries LRUCachePolicy.dropVictim
  rw [OrderedMap.keys_erase, entries_without]
  exact left

theorem drop_victim_inv (inv : EvictableIffIdle policy) (victim : OffloadKey × BlockStatus) :
    EvictableIffIdle (policy.dropVictim victim) := by
  intro key
  obtain ⟨blocks, evictable⟩ := drop_victims_get [victim] policy key
  rw [List.foldl_cons, List.foldl_nil] at blocks evictable
  rw [evictable, blocks, inv key]
  by_cases dropped : key = victim.1 <;> simp [dropped]

/-- The queue LRU evicts from. -/
def lruQueue (guarded : List OffloadKey) : Queue LRUCachePolicy (OffloadKey × BlockStatus) where
  order := lruOrder guarded
  drop := dropVictim
  finish := id
  Inv := EvictableIffIdle
  inv_step inv _ := drop_victim_inv inv _
  order_step _ order := lru_order_step order
  finish_once _ _ := rfl

theorem lru_evict_batch (inv : EvictableIffIdle policy) (guarded : List OffloadKey) (count : Nat) :
    policy.evict count guarded = .ok ((lruQueue guarded).batch count policy) := by
  have scanned := candidates_eq guarded policy.evictableBlocks.keys
    (fun key member => (inv key).mp member) count
  unfold LRUCachePolicy.evict Queue.batch
  by_cases nothing : count = 0
  · simp [nothing]
  · rw [if_neg nothing, if_neg nothing, scanned]
    change (if ((lruOrder guarded policy).take count).length < count then _ else _) =
      Except.ok (if (lruOrder guarded policy).length < count then none else _)
    by_cases short : (lruOrder guarded policy).length < count
    · rw [if_pos (by rw [List.length_take]; omega), if_pos short]
    · rw [if_neg (by rw [List.length_take]; omega), if_neg short]
      rfl

end Lru

end KvOffload.EvictionOrder
