import KvOffload.FloatRounding
import KvOffload.PolicyInterface

/-!
# ARC policy

Live blocks are split over `t1` (used once) and `t2` (used again); `b1` and
`b2` are ghost lists of evicted keys. The adaptive target is a float: every quotient,
sum and difference is rounded, in the source to a double; capacities and list sizes
are below `2 ^ 53`, so they are floats themselves. What the manager needs is that no
key is live twice.
-/

namespace KvOffload.ArcPolicy

open KvOffload KvOffload.Base KvOffload.PolicyInterface KvOffload.FloatRounding

set_option autoImplicit false

structure ARCCachePolicy where
  cacheCapacity : Nat
  targetT1Size : Rat
  t1 : OrderedMap OffloadKey BlockStatus
  t2 : OrderedMap OffloadKey BlockStatus
  b1 : OrderedMap OffloadKey Unit
  b2 : OrderedMap OffloadKey Unit
  rounding : Rounding

namespace ARCCachePolicy

def new (cacheCapacity : Nat) (rounding : Rounding) : ARCCachePolicy :=
  ⟨cacheCapacity, 0, OrderedMap.empty, OrderedMap.empty, OrderedMap.empty, OrderedMap.empty,
    rounding⟩

def get (policy : ARCCachePolicy) (key : OffloadKey) : Option BlockStatus :=
  (policy.t1.get? key).or (policy.t2.get? key)

def insert (policy : ARCCachePolicy) (key : OffloadKey) (block : BlockStatus) :
    ARCCachePolicy :=
  { policy with
    t1 := policy.t1.set key block
    b1 := policy.b1.erase key
    b2 := policy.b2.erase key }

def remove (policy : ARCCachePolicy) (key : OffloadKey) : ARCCachePolicy :=
  if policy.t1.contains key then { policy with t1 := policy.t1.erase key }
  else { policy with t2 := policy.t2.erase key }

/-- One key of `touch`. A pending block was only just prepared, so it stays in
`t1`; ghost hits move the target and refresh the ghost entry. -/
def touchKey (policy : ARCCachePolicy) (key : OffloadKey) : ARCCachePolicy :=
  match policy.t1.get? key with
  | some block =>
      if block.isReady then
        { policy with t1 := policy.t1.erase key, t2 := policy.t2.set key block }
      else { policy with t1 := (policy.t1.erase key).set key block }
  | none =>
      if policy.t2.contains key then { policy with t2 := policy.t2.moveToEnd key }
      else if policy.b1.contains key then
        let delta : Rat := max 1 (policy.rounding.round ((policy.b2.size : Rat) / policy.b1.size))
        { policy with
          targetT1Size :=
            min (policy.rounding.round (policy.targetT1Size + delta)) policy.cacheCapacity
          b1 := policy.b1.moveToEnd key }
      else if policy.b2.contains key then
        let delta : Rat := max 1 (policy.rounding.round ((policy.b1.size : Rat) / policy.b2.size))
        { policy with
          targetT1Size := max (policy.rounding.round (policy.targetT1Size - delta)) 0
          b2 := policy.b2.moveToEnd key }
      else policy

def touch (policy : ARCCachePolicy) (keys : List OffloadKey) : ARCCachePolicy :=
  keys.reverse.foldl touchKey policy

def clear (policy : ARCCachePolicy) : ARCCachePolicy := new policy.cacheCapacity policy.rounding

/-- Advances an iterator over a live list to its next idle, unguarded entry. -/
def nextCandidate (guarded : List OffloadKey) :
    Victims → Option ((OffloadKey × BlockStatus) × Victims)
  | [] => none
  | entry :: rest =>
      if entry.2.refCnt = 0 ∧ entry.1 ∉ guarded then some (entry, rest)
      else nextCandidate guarded rest

/-- The selection loop. Both iterators only move forward; `t1` is scanned while
its virtual size reaches the target, and an exhausted `t1` falls back to `t2`. -/
def selectCandidates (target : Int) (guarded : List OffloadKey) :
    Nat → Int → Victims → Victims → Option (List ((OffloadKey × BlockStatus) × Bool))
  | 0, _, _, _ => some []
  | count + 1, virtualT1Size, t1Iter, t2Iter =>
      let scanT1 := target ≤ virtualT1Size
      match if scanT1 then nextCandidate guarded t1Iter else none with
      | some (entry, t1Rest) =>
          (selectCandidates target guarded count (virtualT1Size - 1) t1Rest t2Iter).map
            ((entry, true) :: ·)
      | none =>
          match nextCandidate guarded t2Iter with
          | none => none
          | some (entry, t2Rest) =>
              (selectCandidates target guarded count virtualT1Size
                (if scanT1 then [] else t1Iter) t2Rest).map ((entry, false) :: ·)

def dropCandidate (policy : ARCCachePolicy)
    (candidate : (OffloadKey × BlockStatus) × Bool) : ARCCachePolicy :=
  if candidate.2 then
    { policy with
      t1 := policy.t1.erase candidate.1.1
      b1 := policy.b1.set candidate.1.1 () }
  else
    { policy with
      t2 := policy.t2.erase candidate.1.1
      b2 := policy.b2.set candidate.1.1 () }

def trimGhosts (policy : ARCCachePolicy) : ARCCachePolicy :=
  { policy with
    b1 := policy.b1.dropOldest (policy.b1.size - policy.cacheCapacity)
    b2 := policy.b2.dropOldest (policy.b2.size - policy.cacheCapacity) }

def evict (policy : ARCCachePolicy) (count : Nat) (guarded : List OffloadKey) :
    Option (Victims × ARCCachePolicy) :=
  if count = 0 then some ([], policy)
  else
    match selectCandidates policy.targetT1Size.floor guarded count policy.t1.size
        policy.t1.entries policy.t2.entries with
    | none => none
    | some found => some (found.map Prod.fst, trimGhosts (found.foldl dropCandidate policy))

def setRefCnt (policy : ARCCachePolicy) (key : OffloadKey) (refCnt : Int) : ARCCachePolicy :=
  if policy.t1.contains key then
    { policy with t1 := policy.t1.modify key fun block => block.withRefCnt refCnt }
  else { policy with t2 := policy.t2.modify key fun block => block.withRefCnt refCnt }

end ARCCachePolicy

/-- ARC does not override the two evictability notices. -/
instance : CachePolicy ARCCachePolicy where
  get := ARCCachePolicy.get
  insert := ARCCachePolicy.insert
  remove policy key := .ok (policy.remove key)
  touch := ARCCachePolicy.touch
  evict policy count guarded := .ok (policy.evict count guarded)
  clear := ARCCachePolicy.clear
  storedKeys policy := policy.t1.keys ++ policy.t2.keys
  markEvictable policy _ := policy
  markNonEvictable policy _ := .ok policy
  setRefCnt := ARCCachePolicy.setRefCnt

/-- No key is live in both lists. -/
def LiveListsDisjoint (policy : ARCCachePolicy) : Prop :=
  ∀ key, policy.t1.get? key = none ∨ policy.t2.get? key = none

theorem arc_set_ref_cnt_get {policy : ARCCachePolicy} {key : OffloadKey} {block : BlockStatus}
    (stored : policy.get key = some block) (refCnt : Int) (other : OffloadKey) :
    (policy.setRefCnt key refCnt).get other =
      if other = key then some (block.withRefCnt refCnt) else policy.get other := by
  unfold ARCCachePolicy.get at stored ⊢
  unfold ARCCachePolicy.setRefCnt OrderedMap.contains
  by_cases same : other = key
  · subst same
    cases inT1 : policy.t1.get? other with
    | none =>
        rw [inT1, Option.none_or] at stored
        simp [OrderedMap.get_modify, inT1, stored]
    | some found =>
        rw [inT1, Option.some_or, Option.some.injEq] at stored
        simp [OrderedMap.get_modify, inT1, stored]
  · split <;> simp [OrderedMap.get_modify, same]

theorem arc_set_ref_cnt_disjoint {policy : ARCCachePolicy} (inv : LiveListsDisjoint policy)
    (key : OffloadKey) (refCnt : Int) : LiveListsDisjoint (policy.setRefCnt key refCnt) := by
  intro other
  unfold ARCCachePolicy.setRefCnt
  split
  · simp only [OrderedMap.get_modify]
    split
    · exact (inv other).imp_left fun absent => by simp [absent]
    · exact inv other
  · simp only [OrderedMap.get_modify]
    split
    · exact (inv other).imp_right fun absent => by simp [absent]
    · exact inv other

theorem touch_key_frame {policy : ARCCachePolicy} (inv : LiveListsDisjoint policy)
    (touched : OffloadKey) :
    LiveListsDisjoint (policy.touchKey touched) ∧
      ∀ key, (policy.touchKey touched).get key = policy.get key := by
  have atTouched := inv touched
  unfold ARCCachePolicy.touchKey
  cases inT1 : policy.t1.get? touched with
  | some block =>
      have absentT2 : policy.t2.get? touched = none := by simpa [inT1] using atTouched
      by_cases ready : block.isReady
      · simp only [ready, if_true]
        constructor
        · intro key
          simp only [OrderedMap.get_erase, OrderedMap.get_set]
          by_cases same : key = touched <;> simp [same, inv key]
        · intro key
          simp only [ARCCachePolicy.get, OrderedMap.get_erase, OrderedMap.get_set]
          by_cases same : key = touched <;> simp [same, inT1]
      · simp only [ready, Bool.false_eq_true, if_false]
        constructor
        · intro key
          simp only [OrderedMap.get_erase, OrderedMap.get_set]
          by_cases same : key = touched <;> simp [same, absentT2, inv key]
        · intro key
          simp only [ARCCachePolicy.get, OrderedMap.get_erase, OrderedMap.get_set]
          by_cases same : key = touched <;> simp [same, inT1]
  | none =>
      -- every remaining branch keeps both live maps up to order
      simp only
      split
      · exact ⟨fun key => by simpa using inv key, fun key => by simp [ARCCachePolicy.get]⟩
      · split
        · exact ⟨inv, fun _ => rfl⟩
        · split
          · exact ⟨inv, fun _ => rfl⟩
          · exact ⟨inv, fun _ => rfl⟩

theorem arc_touch_frame (keys : List OffloadKey) {policy : ARCCachePolicy}
    (inv : LiveListsDisjoint policy) :
    LiveListsDisjoint (keys.foldl ARCCachePolicy.touchKey policy) ∧
      ∀ key, (keys.foldl ARCCachePolicy.touchKey policy).get key = policy.get key := by
  induction keys generalizing policy with
  | nil => exact ⟨inv, fun _ => rfl⟩
  | cons touched rest ih =>
      obtain ⟨stepInv, stepGet⟩ := touch_key_frame inv touched
      obtain ⟨restInv, restGet⟩ := ih stepInv
      exact ⟨restInv, fun key => (restGet key).trans (stepGet key)⟩

theorem next_candidate_split {guarded : List OffloadKey} {scan rest : Victims}
    {entry : OffloadKey × BlockStatus}
    (found : ARCCachePolicy.nextCandidate guarded scan = some (entry, rest)) :
    (∃ skipped, scan = skipped ++ entry :: rest) ∧ entry.2.refCnt = 0 ∧ entry.1 ∉ guarded := by
  induction scan with
  | nil => simp [ARCCachePolicy.nextCandidate] at found
  | cons head tail ih =>
      unfold ARCCachePolicy.nextCandidate at found
      split at found
      · rename_i idle
        simp only [Option.some.injEq, Prod.mk.injEq] at found
        obtain ⟨rfl, rfl⟩ := found
        exact ⟨⟨[], rfl⟩, idle⟩
      · obtain ⟨⟨skipped, split⟩, idle⟩ := ih found
        exact ⟨⟨head :: skipped, by simp [split]⟩, idle⟩

/-- A selection of `count` candidates: idle, unguarded, from the list its tag
names, and no key twice. -/
structure Selection (guarded : List OffloadKey) (t1Iter t2Iter : Victims) (count : Nat)
    (found : List ((OffloadKey × BlockStatus) × Bool)) : Prop where
  count_eq : found.length = count
  source : ∀ candidate ∈ found,
    if candidate.2 then candidate.1 ∈ t1Iter else candidate.1 ∈ t2Iter
  idle : ∀ candidate ∈ found, candidate.1.2.refCnt = 0 ∧ candidate.1.1 ∉ guarded
  distinct : (found.map fun candidate => candidate.1.1).Nodup

theorem Selection.key_mem {guarded : List OffloadKey} {t1Iter t2Iter : Victims} {count : Nat}
    {found : List ((OffloadKey × BlockStatus) × Bool)}
    (selection : Selection guarded t1Iter t2Iter count found) {key : OffloadKey}
    (member : key ∈ found.map fun candidate => candidate.1.1) :
    key ∈ (t1Iter ++ t2Iter).map Prod.fst := by
  obtain ⟨candidate, candidateMember, rfl⟩ := List.mem_map.mp member
  have source := selection.source candidate candidateMember
  apply List.mem_map_of_mem
  rw [List.mem_append]
  split at source
  · exact Or.inl source
  · exact Or.inr source

theorem select_candidates_spec {target : Int} {guarded : List OffloadKey} (count : Nat)
    (virtualT1Size : Int) (t1Iter t2Iter : Victims)
    (nodup : ((t1Iter ++ t2Iter).map Prod.fst).Nodup)
    {found : List ((OffloadKey × BlockStatus) × Bool)}
    (selected : ARCCachePolicy.selectCandidates target guarded count virtualT1Size
      t1Iter t2Iter = some found) :
    Selection guarded t1Iter t2Iter count found := by
  induction count generalizing virtualT1Size t1Iter t2Iter found with
  | zero =>
      simp only [ARCCachePolicy.selectCandidates, Option.some.injEq] at selected
      subst selected
      exact ⟨rfl, by simp, by simp, by simp⟩
  | succ count ih =>
      simp only [ARCCachePolicy.selectCandidates] at selected
      split at selected
      · rename_i entry t1Rest chosen
        split at chosen
        case isFalse => simp at chosen
        obtain ⟨⟨skipped, rfl⟩, idle, free⟩ := next_candidate_split chosen
        obtain ⟨later, laterSelected, rfl⟩ := Option.map_eq_some_iff.mp selected
        simp only [List.map_append, List.map_cons, List.append_assoc, List.cons_append] at nodup
        have tailNodup := (List.nodup_append.mp nodup).2.1
        rw [List.nodup_cons] at tailNodup
        have rest := ih (virtualT1Size - 1) t1Rest t2Iter
          (by simpa using tailNodup.2) laterSelected
        refine ⟨by simp [rest.count_eq], ?_, ?_, ?_⟩
        · intro candidate member
          rcases List.mem_cons.mp member with rfl | member
          · simp
          · have source := rest.source candidate member
            split at source
            · simp [*]
            · simp [*]
        · intro candidate member
          rcases List.mem_cons.mp member with rfl | member
          · exact ⟨idle, free⟩
          · exact rest.idle candidate member
        · rw [List.map_cons, List.nodup_cons]
          exact ⟨fun member => tailNodup.1 (by simpa using rest.key_mem member), rest.distinct⟩
      · split at selected
        · simp at selected
        · rename_i entry t2Rest chosen
          obtain ⟨⟨skipped, rfl⟩, idle, free⟩ := next_candidate_split chosen
          obtain ⟨later, laterSelected, rfl⟩ := Option.map_eq_some_iff.mp selected
          simp only [List.map_append, List.map_cons] at nodup
          have tailNodup := (List.nodup_append.mp nodup).2.1
          have entryNodup := (List.nodup_append.mp tailNodup).2.1
          have across := (List.nodup_append.mp nodup).2.2
          rw [List.nodup_cons] at entryNodup
          have remaining : ∀ t1Left : Victims, t1Left = [] ∨ t1Left = t1Iter →
              ((t1Left ++ t2Rest).map Prod.fst).Nodup ∧
                entry.1 ∉ (t1Left ++ t2Rest).map Prod.fst := by
            rintro t1Left (rfl | rfl)
            · simpa using And.symm entryNodup
            · rw [List.map_append, List.nodup_append]
              refine ⟨⟨(List.nodup_append.mp nodup).1, entryNodup.2, ?_⟩, ?_⟩
              · intro left leftMember right rightMember
                exact across left leftMember right (by simp [rightMember])
              · rw [List.mem_append]
                rintro (inT1 | inT2)
                · exact across entry.1 inT1 entry.1 (by simp) rfl
                · exact entryNodup.1 inT2
          have remainingT1 := remaining (if target ≤ virtualT1Size then [] else t1Iter)
            (by split <;> simp)
          have rest := ih virtualT1Size _ t2Rest remainingT1.1 laterSelected
          refine ⟨by simp [rest.count_eq], ?_, ?_, ?_⟩
          · intro candidate member
            rcases List.mem_cons.mp member with rfl | member
            · simp
            · have source := rest.source candidate member
              split at source
              · rename_i fromT1
                split at source
                · simp at source
                · simpa [fromT1] using source
              · simp [*]
          · intro candidate member
            rcases List.mem_cons.mp member with rfl | member
            · exact ⟨idle, free⟩
            · exact rest.idle candidate member
          · rw [List.map_cons, List.nodup_cons]
            exact ⟨fun member => remainingT1.2 (rest.key_mem member), rest.distinct⟩

/-- The key and the list tag of each candidate. -/
def taggedKeys (found : List ((OffloadKey × BlockStatus) × Bool)) : List (OffloadKey × Bool) :=
  found.map fun candidate => (candidate.1.1, candidate.2)

theorem drop_candidates_get (found : List ((OffloadKey × BlockStatus) × Bool))
    (policy : ARCCachePolicy) (key : OffloadKey) :
    (found.foldl ARCCachePolicy.dropCandidate policy).t1.get? key =
        (if (key, true) ∈ taggedKeys found then none else policy.t1.get? key) ∧
      (found.foldl ARCCachePolicy.dropCandidate policy).t2.get? key =
        (if (key, false) ∈ taggedKeys found then none else policy.t2.get? key) := by
  induction found generalizing policy with
  | nil => simp [taggedKeys]
  | cons candidate rest ih =>
      obtain ⟨⟨target, block⟩, fromT1⟩ := candidate
      obtain ⟨inT1, inT2⟩ := ih (policy.dropCandidate ((target, block), fromT1))
      have cons : ∀ tag, (key, tag) ∈ taggedKeys (((target, block), fromT1) :: rest) ↔
          (key = target ∧ tag = fromT1) ∨ (key, tag) ∈ taggedKeys rest := by
        intro tag
        rw [taggedKeys, List.map_cons, List.mem_cons, Prod.mk.injEq]
        rfl
      rw [List.foldl_cons, inT1, inT2]
      simp only [cons]
      by_cases same : key = target
      · subst same
        cases fromT1 <;> simp [ARCCachePolicy.dropCandidate, OrderedMap.get_erase]
      · cases fromT1 <;> simp [ARCCachePolicy.dropCandidate, OrderedMap.get_erase, same]

theorem live_keys_nodup {policy : ARCCachePolicy} (inv : LiveListsDisjoint policy) :
    (policy.t1.keys ++ policy.t2.keys).Nodup := by
  rw [List.nodup_append]
  refine ⟨policy.t1.keys_nodup, policy.t2.keys_nodup, ?_⟩
  rintro left leftMember right rightMember rfl
  rw [OrderedMap.mem_keys_iff] at leftMember rightMember
  rcases inv left with absent | absent
  · simp [absent] at leftMember
  · simp [absent] at rightMember

theorem arc_evict_ok {policy : ARCCachePolicy} (inv : LiveListsDisjoint policy) (count : Nat)
    (guarded : List OffloadKey) :
    policy.evict count guarded = none ∨
      ∃ victims after, policy.evict count guarded = some (victims, after) ∧
        LiveListsDisjoint after ∧ EvictOutcome policy count guarded victims after := by
  by_cases nothing : count = 0
  · refine Or.inr ⟨[], policy, by simp [ARCCachePolicy.evict, nothing], inv, ?_⟩
    exact ⟨by simp [nothing], by simp, by simp, by simp, by simp⟩
  · cases selected : ARCCachePolicy.selectCandidates policy.targetT1Size.floor guarded count
        policy.t1.size policy.t1.entries policy.t2.entries with
    | none => exact Or.inl (by simp [ARCCachePolicy.evict, nothing, selected])
    | some found =>
        have nodup : ((policy.t1.entries ++ policy.t2.entries).map Prod.fst).Nodup := by
          simpa [OrderedMap.keys] using live_keys_nodup inv
        have selection := select_candidates_spec count _ _ _ nodup selected
        let after := ARCCachePolicy.trimGhosts (found.foldl ARCCachePolicy.dropCandidate policy)
        refine Or.inr ⟨found.map Prod.fst, after,
          by simp [ARCCachePolicy.evict, nothing, selected, after], ?_, ?_⟩
        · intro key
          obtain ⟨inT1, inT2⟩ := drop_candidates_get found policy key
          show (found.foldl ARCCachePolicy.dropCandidate policy).t1.get? key = none ∨
            (found.foldl ARCCachePolicy.dropCandidate policy).t2.get? key = none
          rw [inT1, inT2]
          rcases inv key with absent | absent <;> simp [absent]
        · have stored : ∀ candidate ∈ found, policy.get candidate.1.1 = some candidate.1.2 ∧
              (candidate.2 = true → policy.t2.get? candidate.1.1 = none) ∧
              (candidate.2 = false → policy.t1.get? candidate.1.1 = none) := by
            intro candidate member
            have source := selection.source candidate member
            have disjoint := inv candidate.1.1
            cases fromT1 : candidate.2
            · have inT2 := (policy.t2.get_eq_some_iff _ _).mpr
                (show (candidate.1.1, candidate.1.2) ∈ policy.t2.entries by
                  simpa [fromT1] using source)
              have absent : policy.t1.get? candidate.1.1 = none := by
                simpa [inT2] using disjoint
              simp [ARCCachePolicy.get, absent, inT2]
            · have inT1 := (policy.t1.get_eq_some_iff _ _).mpr
                (show (candidate.1.1, candidate.1.2) ∈ policy.t1.entries by
                  simpa [fromT1] using source)
              have absent : policy.t2.get? candidate.1.1 = none := by
                simpa [inT1] using disjoint
              simp [ARCCachePolicy.get, absent, inT1]
          refine ⟨by simp [selection.count_eq],
            by simpa [Function.comp_def] using selection.distinct, ?_, ?_, ?_⟩
          · intro victim member
            obtain ⟨candidate, candidateMember, rfl⟩ := List.mem_map.mp member
            exact ⟨(stored candidate candidateMember).1,
              (selection.idle candidate candidateMember).1⟩
          · intro victim member
            obtain ⟨candidate, candidateMember, rfl⟩ := List.mem_map.mp member
            exact (selection.idle candidate candidateMember).2
          · intro key
            obtain ⟨inT1, inT2⟩ := drop_candidates_get found policy key
            show ((found.foldl ARCCachePolicy.dropCandidate policy).t1.get? key).or
              ((found.foldl ARCCachePolicy.dropCandidate policy).t2.get? key) = _
            rw [inT1, inT2]
            by_cases dropped : key ∈ (found.map Prod.fst).map Prod.fst
            · rw [if_pos dropped]
              simp only [List.map_map, List.mem_map, Function.comp_apply] at dropped
              obtain ⟨candidate, member, rfl⟩ := dropped
              have away := (stored candidate member).2
              have tagged : (candidate.1.1, candidate.2) ∈ taggedKeys found :=
                List.mem_map.mpr ⟨candidate, member, rfl⟩
              cases fromT1 : candidate.2 <;> rw [fromT1] at tagged
              · rw [if_pos tagged, away.2 fromT1]
                simp
              · rw [if_pos tagged, away.1 fromT1]
                simp
            · have untagged : ∀ tag, (key, tag) ∉ taggedKeys found := by
                intro tag member
                obtain ⟨candidate, candidateMember, same⟩ := List.mem_map.mp member
                rw [Prod.mk.injEq] at same
                rw [← same.1] at dropped
                exact dropped (List.mem_map_of_mem (List.mem_map_of_mem candidateMember))
              rw [if_neg dropped, if_neg (untagged true), if_neg (untagged false)]
              rfl

instance : LawfulCachePolicy ARCCachePolicy where
  Inv := LiveListsDisjoint
  stored_nodup inv := live_keys_nodup inv
  mem_stored {policy} _ key := by
    simp only [CachePolicy.storedKeys, CachePolicy.get, ARCCachePolicy.get, List.mem_append,
      OrderedMap.mem_keys_iff, Option.isSome_or, Bool.or_eq_true]
  inv_insert {policy} inv key blockId absent other := by
    simp only [CachePolicy.get, ARCCachePolicy.get, Option.or_eq_none_iff] at absent
    simp only [CachePolicy.insert, ARCCachePolicy.insert, OrderedMap.get_set]
    by_cases same : other = key
    · simp [same, absent.2]
    · simpa [same] using inv other
  get_insert {policy} _ key blockId absent other := by
    simp only [CachePolicy.get, ARCCachePolicy.get, CachePolicy.insert, ARCCachePolicy.insert,
      OrderedMap.get_set]
    by_cases same : other = key <;> simp [same]
  inv_touch inv keys := (arc_touch_frame keys.reverse inv).1
  get_touch inv keys other := (arc_touch_frame keys.reverse inv).2 other
  remove_ok {policy} inv key block stored := by
    refine ⟨policy.remove key, rfl, fun other => ?_, fun other => ?_⟩
    · unfold ARCCachePolicy.remove
      split <;> simp only [OrderedMap.get_erase] <;> split <;> simp [inv other]
    · have disjoint := inv key
      show (policy.remove key).get other = if other = key then none else policy.get other
      unfold ARCCachePolicy.remove OrderedMap.contains
      split
      · rename_i inT1
        have absent : policy.t2.get? key = none :=
          disjoint.resolve_left (Option.isSome_iff_ne_none.mp inT1)
        by_cases same : other = key <;>
          simp [ARCCachePolicy.get, OrderedMap.get_erase, same, absent]
      · rename_i notInT1
        have absent : policy.t1.get? key = none := by simpa using notInT1
        by_cases same : other = key <;>
          simp [ARCCachePolicy.get, OrderedMap.get_erase, same, absent]
  evict_ok {policy} inv count guarded := by
    rcases arc_evict_ok inv count guarded with failed | ⟨victims, after, done, spec⟩
    · exact Or.inl (congrArg Except.ok failed)
    · exact Or.inr ⟨victims, after, congrArg Except.ok done, spec⟩
  inv_clear _ _ := Or.inl rfl
  get_clear _ _ := rfl
  inv_recount inv _ _ _ _ _ _ := arc_set_ref_cnt_disjoint inv _ _
  get_recount _ _ _ _ stored other := arc_set_ref_cnt_get stored _ other
  inv_release inv _ _ _ _ := arc_set_ref_cnt_disjoint inv _ _
  get_release _ _ _ stored other := arc_set_ref_cnt_get stored 0 other
  pin_ok {policy} inv key _ stored _ :=
    ⟨policy, rfl, arc_set_ref_cnt_disjoint inv _ _, fun other => arc_set_ref_cnt_get stored 1 other⟩

end KvOffload.ArcPolicy
