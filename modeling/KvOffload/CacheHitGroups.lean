import KvOffload.Base

/-!
# Attention groups of the hybrid coordinator

`verify_and_split_kv_cache_groups`: the KV cache groups that take part in prefix caching,
joined by their spec, full attention first. No group has an EAGLE drop here.
-/

namespace KvOffload.CacheHitGroups

open KvOffload KvOffload.Base

set_option autoImplicit false

/-- What else distinguishes two specs is in `detail`. -/
structure KVCacheSpec (Detail : Type) where
  fullAttention : Bool
  participatesInPrefixCaching : Bool
  detail : Detail
  deriving DecidableEq

/-- A KV cache group with its manager. -/
structure KVCacheGroup (Detail Cls : Type) where
  spec : KVCacheSpec Detail
  managerCls : Cls
  blockSize : Nat

/-- The ids of a group are never empty. -/
structure SpecGroup (Detail Cls : Type) where
  spec : KVCacheSpec Detail
  firstGroupId : Nat
  otherGroupIds : List Nat
  managerCls : Cls

variable {Detail Cls : Type}

def SpecGroup.groupIds (group : SpecGroup Detail Cls) : List Nat :=
  group.firstGroupId :: group.otherGroupIds

def allGroupIds (groups : List (SpecGroup Detail Cls)) : List Nat :=
  groups.flatMap SpecGroup.groupIds

variable [DecidableEq Detail] [DecidableEq Cls]

/-- The first group of the same spec takes the id. -/
def joinGroup (groupId : Nat) (added : KVCacheGroup Detail Cls) :
    List (SpecGroup Detail Cls) → Except PyError (List (SpecGroup Detail Cls))
  | [] => .ok [⟨added.spec, groupId, [], added.managerCls⟩]
  | group :: rest =>
      if group.spec = added.spec then do
        pyAssert (added.managerCls = group.managerCls)
        .ok ({ group with otherGroupIds := group.otherGroupIds ++ [groupId] } :: rest)
      else do
        let rest ← joinGroup groupId added rest
        .ok (group :: rest)

def splitGroups : Nat → List (KVCacheGroup Detail Cls) → List (SpecGroup Detail Cls) →
    Except PyError (List (SpecGroup Detail Cls))
  | _, [], groups => .ok groups
  | groupId, added :: rest, groups =>
      if added.spec.participatesInPrefixCaching then do
        let groups ← joinGroup groupId added groups
        splitGroups (groupId + 1) rest groups
      else splitGroups (groupId + 1) rest groups

/-- A stable sort by a two-valued key keeps both kinds in order. -/
def fullAttentionFirst (groups : List (SpecGroup Detail Cls)) : List (SpecGroup Detail Cls) :=
  groups.filter (fun group => group.spec.fullAttention) ++
    groups.filter fun group => !group.spec.fullAttention

def verifyAndSplitKvCacheGroups (kvCacheGroups : List (KVCacheGroup Detail Cls)) :
    Except PyError (List (SpecGroup Detail Cls)) := do
  let groups ← splitGroups 0 kvCacheGroups []
  pyAssert (1 < groups.length)
  .ok (fullAttentionFirst groups)

/-- The groups hold just the ids that take part, each once and under its own spec. -/
structure Grouped (kvCacheGroups : List (KVCacheGroup Detail Cls))
    (groups : List (SpecGroup Detail Cls)) : Prop where
  distinct : (allGroupIds groups).Nodup
  member_iff : ∀ groupId, groupId ∈ allGroupIds groups ↔ ∃ cacheGroup,
    kvCacheGroups[groupId]? = some cacheGroup ∧
      cacheGroup.spec.participatesInPrefixCaching = true
  agree : ∀ group ∈ groups, ∀ groupId ∈ group.groupIds, ∃ cacheGroup,
    kvCacheGroups[groupId]? = some cacheGroup ∧ cacheGroup.spec = group.spec ∧
      cacheGroup.managerCls = group.managerCls

variable {groups after : List (SpecGroup Detail Cls)} {added : KVCacheGroup Detail Cls}
  {groupId : Nat}

theorem join_group_ids (joined : joinGroup groupId added groups = .ok after) :
    (allGroupIds after).Perm (groupId :: allGroupIds groups) := by
  induction groups generalizing after with
  | nil =>
      cases joined
      exact List.Perm.refl _
  | cons group rest ih =>
      unfold joinGroup at joined
      split at joined
      · obtain ⟨_, _, done⟩ := bind_eq_ok.mp joined
        cases done
        simp only [allGroupIds, List.flatMap_cons, SpecGroup.groupIds, List.cons_append,
          List.append_assoc]
        exact (List.perm_middle.cons _).trans (List.Perm.swap _ _ _)
      · obtain ⟨later, joinedRest, done⟩ := bind_eq_ok.mp joined
        cases done
        have behind := (ih joinedRest).append_left group.groupIds
        simp only [allGroupIds, List.flatMap_cons] at behind ⊢
        exact behind.trans List.perm_middle

theorem join_group_agrees (joined : joinGroup groupId added groups = .ok after) :
    ∀ group ∈ after, ∀ id ∈ group.groupIds,
      (id = groupId ∧ added.spec = group.spec ∧ added.managerCls = group.managerCls) ∨
        ∃ before ∈ groups, id ∈ before.groupIds ∧ before.spec = group.spec ∧
          before.managerCls = group.managerCls := by
  induction groups generalizing after with
  | nil =>
      cases joined
      intro group member id inGroup
      obtain rfl := List.mem_singleton.mp member
      exact .inl ⟨List.mem_singleton.mp inGroup, rfl, rfl⟩
  | cons head rest ih =>
      unfold joinGroup at joined
      split at joined
      · rename_i sameSpec
        obtain ⟨_, sameClass, done⟩ := bind_eq_ok.mp joined
        have sameClass := py_assert_eq_ok.mp sameClass
        cases done
        intro group member id inGroup
        rcases List.mem_cons.mp member with rfl | later
        · simp only [SpecGroup.groupIds, ← List.cons_append, List.mem_append,
            List.mem_singleton] at inGroup
          rcases inGroup with old | new
          · exact .inr ⟨head, List.mem_cons_self, old, rfl, rfl⟩
          · exact .inl ⟨new, sameSpec.symm, sameClass⟩
        · exact .inr ⟨group, List.mem_cons_of_mem _ later, inGroup, rfl, rfl⟩
      · obtain ⟨tail, joinedRest, done⟩ := bind_eq_ok.mp joined
        cases done
        intro group member id inGroup
        rcases List.mem_cons.mp member with rfl | later
        · exact .inr ⟨group, List.mem_cons_self, inGroup, rfl, rfl⟩
        · rcases ih joinedRest group later id inGroup with new | ⟨before, old, rest⟩
          · exact .inl new
          · exact .inr ⟨before, List.mem_cons_of_mem _ old, rest⟩

variable {seen : List (KVCacheGroup Detail Cls)}

omit [DecidableEq Detail] [DecidableEq Cls] in
theorem grouped_skip (grouped : Grouped seen groups)
    (optsOut : added.spec.participatesInPrefixCaching = false) :
    Grouped (seen ++ [added]) groups := by
  have old : ∀ {id : Nat} {cacheGroup : KVCacheGroup Detail Cls},
      seen[id]? = some cacheGroup → (seen ++ [added])[id]? = some cacheGroup := by
    intro id cacheGroup found
    have bound := (List.getElem?_eq_some_iff.mp found).1
    rw [List.getElem?_append_left bound, found]
  constructor
  · exact grouped.distinct
  · intro id
    rw [grouped.member_iff]
    constructor
    · intro found
      obtain ⟨cacheGroup, found, takesPart⟩ := found
      exact ⟨cacheGroup, old found, takesPart⟩
    · intro found
      obtain ⟨cacheGroup, found, takesPart⟩ := found
      by_cases early : id < seen.length
      · rw [List.getElem?_append_left early] at found
        exact ⟨cacheGroup, found, takesPart⟩
      · rw [List.getElem?_append_right (not_lt.mp early)] at found
        have last := List.mem_singleton.mp (List.mem_of_getElem? found)
        rw [last, optsOut] at takesPart
        cases takesPart
  · intro group member id inGroup
    obtain ⟨cacheGroup, found, rest⟩ := grouped.agree group member id inGroup
    exact ⟨cacheGroup, old found, rest⟩

theorem grouped_join (grouped : Grouped seen groups)
    (takesPart : added.spec.participatesInPrefixCaching = true)
    (joined : joinGroup seen.length added groups = .ok after) :
    Grouped (seen ++ [added]) after := by
  have ids := join_group_ids joined
  have last : (seen ++ [added])[seen.length]? = some added := by simp
  have old : ∀ {id : Nat} {cacheGroup : KVCacheGroup Detail Cls},
      seen[id]? = some cacheGroup → (seen ++ [added])[id]? = some cacheGroup := by
    intro id cacheGroup found
    have bound := (List.getElem?_eq_some_iff.mp found).1
    rw [List.getElem?_append_left bound, found]
  constructor
  · rw [ids.nodup_iff, List.nodup_cons]
    refine ⟨?_, grouped.distinct⟩
    rw [grouped.member_iff]
    intro found
    obtain ⟨cacheGroup, found, _⟩ := found
    simp at found
  · intro id
    rw [ids.mem_iff, List.mem_cons, grouped.member_iff]
    constructor
    · intro found
      rcases found with rfl | ⟨cacheGroup, found, rest⟩
      · exact ⟨added, last, takesPart⟩
      · exact ⟨cacheGroup, old found, rest⟩
    · intro found
      obtain ⟨cacheGroup, found, rest⟩ := found
      rcases Nat.lt_or_ge id seen.length with early | late
      · rw [List.getElem?_append_left early] at found
        exact .inr ⟨cacheGroup, found, rest⟩
      · have bound := (List.getElem?_eq_some_iff.mp found).1
        rw [List.length_append, List.length_singleton] at bound
        exact .inl (by omega)
  · intro group member id inGroup
    rcases join_group_agrees joined group member id inGroup with
      ⟨rfl, spec, cls⟩ | ⟨before, oldMember, oldIn, spec, cls⟩
    · exact ⟨added, last, spec, cls⟩
    · obtain ⟨cacheGroup, found, sameSpec, sameClass⟩ :=
        grouped.agree before oldMember id oldIn
      exact ⟨cacheGroup, old found, sameSpec.trans spec, sameClass.trans cls⟩

theorem split_groups_grouped (rest : List (KVCacheGroup Detail Cls))
    (grouped : Grouped seen groups)
    (split : splitGroups seen.length rest groups = .ok after) :
    Grouped (seen ++ rest) after := by
  induction rest generalizing seen groups with
  | nil =>
      cases split
      rw [List.append_nil]
      exact grouped
  | cons added rest ih =>
      have next : (seen ++ [added]).length = seen.length + 1 := by simp
      have shift : seen ++ added :: rest = seen ++ [added] ++ rest := by simp
      unfold splitGroups at split
      rw [shift]
      split at split
      · rename_i takesPart
        obtain ⟨middle, joined, split⟩ := bind_eq_ok.mp split
        rw [← next] at split
        exact ih (grouped_join grouped takesPart joined) split
      · rename_i optsOut
        rw [← next] at split
        exact ih (grouped_skip grouped (by simpa using optsOut)) split

/-- The split is complete, has more than one group and starts with those of full attention. -/
theorem verify_and_split_spec {kvCacheGroups : List (KVCacheGroup Detail Cls)}
    (verified : verifyAndSplitKvCacheGroups kvCacheGroups = .ok groups) :
    Grouped kvCacheGroups groups ∧ 1 < groups.length ∧
      fullAttentionFirst groups = groups := by
  obtain ⟨found, split, verified⟩ := bind_eq_ok.mp verified
  obtain ⟨_, several, done⟩ := bind_eq_ok.mp verified
  have several := py_assert_eq_ok.mp several
  cases done
  have empty : Grouped ([] : List (KVCacheGroup Detail Cls)) [] :=
    ⟨List.nodup_nil, by simp [allGroupIds], by simp⟩
  have grouped := split_groups_grouped kvCacheGroups empty split
  rw [List.nil_append] at grouped
  have reordered : (fullAttentionFirst found).Perm found := by
    have parts := List.filter_append_perm (fun group => group.spec.fullAttention) found
    exact parts
  have ids : (allGroupIds (fullAttentionFirst found)).Perm (allGroupIds found) :=
    reordered.flatMap_right _
  refine ⟨⟨?_, ?_, ?_⟩, ?_, ?_⟩
  · exact ids.nodup_iff.mpr grouped.distinct
  · intro id
    rw [ids.mem_iff]
    exact grouped.member_iff id
  · intro group member
    exact grouped.agree group (reordered.mem_iff.mp member)
  · rw [reordered.length_eq]
    exact several
  · simp [fullAttentionFirst, List.filter_append, List.filter_filter]

end KvOffload.CacheHitGroups
