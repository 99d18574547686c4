import KvOffload.CacheHitSearch

/-!
# What the hybrid coordinator returns

The length of the hit is always the longest one that all groups have in common. The blocks
are those of that length, but for the full-attention groups after the first one, which are
neither looked up again nor cut when a later group has shortened the hit.
-/

namespace KvOffload.CacheHitResults

open KvOffload KvOffload.Base KvOffload.CacheHitGroups KvOffload.CacheHitSearch

set_option autoImplicit false

variable {Detail Cls Block : Type} {finders : StockFinders Detail Cls Block}
  {kvCacheGroups : List (KVCacheGroup Detail Cls)}
  {groups fulls others : List (SpecGroup Detail Cls)} {group : SpecGroup Detail Cls}
  {bound : Nat}

/-- The longest common hit with, for every group, its blocks of that length, and no blocks
for the groups that take no part. -/
structure Reconciled (finders : StockFinders Detail Cls Block)
    (kvCacheGroups : List (KVCacheGroup Detail Cls)) (groups : List (SpecGroup Detail Cls))
    (bound : Nat) (result : List (List Block) × Nat × Int) : Prop where
  greatest : IsGreatest (common finders groups bound) result.2.1
  held : ∀ group ∈ groups, ∀ groupId ∈ group.groupIds,
    result.1[groupId]? = some (finders.blocksAt group groupId result.2.1)
  optedOut : ∀ (groupId : Nat) (cacheGroup : KVCacheGroup Detail Cls),
    kvCacheGroups[groupId]? = some cacheGroup →
      cacheGroup.spec.participatesInPrefixCaching = false → result.1[groupId]? = some []

/-- No full-attention group after the first has a hit, common with the groups before it,
of more blocks than some hit common to all groups. -/
def TrailingFullsFit (finders : StockFinders Detail Cls Block)
    (kvCacheGroups : List (KVCacheGroup Detail Cls)) (groups : List (SpecGroup Detail Cls))
    (bound : Nat) : Prop :=
  ∀ index group, 0 < index → groups[index]? = some group → group.spec.fullAttention = true →
    ∀ length ∈ common finders (groups.take (index + 1)) bound,
      ∃ shorter ∈ common finders groups bound,
        cdiv length (blockSizeOf kvCacheGroups group.firstGroupId) ≤
          cdiv shorter (blockSizeOf kvCacheGroups group.firstGroupId)

theorem cdiv_le_cdiv (divisor : Nat) {shorter longer : Nat} (le : shorter ≤ longer) :
    cdiv shorter divisor ≤ cdiv longer divisor := by
  unfold cdiv
  exact Nat.div_le_div_right (by omega)

section Result

variable {final : Nat × GroupHits Block}

/-- The blocks that the caller gets for a group. -/
theorem truncated_blocks (lawful : Lawful finders kvCacheGroups (fulls ++ others))
    (full : ∀ group ∈ fulls, group.spec.fullAttention = true)
    (sparse : ∀ group ∈ others, group.spec.fullAttention = false)
    (distinct : (allGroupIds (fulls ++ others)).Nodup)
    (settled : Settled finders bound fulls others final) :
    (∀ group ∈ others, ∀ groupId ∈ group.groupIds,
      (truncate kvCacheGroups (fulls ++ others) final.1 final.2).blocks groupId =
        some (finders.blocksAt group groupId final.1)) ∧
      (∀ groupId ∉ allGroupIds (fulls ++ others),
        (truncate kvCacheGroups (fulls ++ others) final.1 final.2).blocks groupId = none) ∧
      ∀ index group, fulls[index]? = some group → ∃ length,
        IsGreatest (common finders (fulls.take (index + 1)) bound) length ∧
          ∀ groupId ∈ group.groupIds,
            (truncate kvCacheGroups (fulls ++ others) final.1 final.2).blocks groupId =
              some (finders.blocksAt group groupId (if index = 0 then final.1 else length)) := by
  cases fulls with
  | nil =>
      have same : truncate kvCacheGroups ([] ++ others) final.1 final.2 = final.2 := by
        cases others with
        | nil => rfl
        | cons first rest =>
            show (if _ then _ else _) = _
            rw [if_neg (by rw [sparse first List.mem_cons_self]; exact Bool.false_ne_true)]
      rw [same]
      exact ⟨fun group member groupId inGroup => (settled.sparse group member groupId inGroup).1,
        settled.absent, by simp⟩
  | cons first rest =>
      have cut : ∀ groupId, (truncate kvCacheGroups (first :: rest ++ others) final.1
          final.2).blocks groupId = if groupId ∈ first.groupIds then
            (final.2.blocks groupId).map
              (List.take (cdiv final.1 (blockSizeOf kvCacheGroups first.firstGroupId)))
          else final.2.blocks groupId := by
        intro groupId
        rw [List.cons_append, truncate, if_pos (full first List.mem_cons_self)]
      have firstApart : ∀ {group : SpecGroup Detail Cls}, group ∈ rest ++ others →
          ∀ {groupId : Nat}, groupId ∈ group.groupIds → groupId ∉ first.groupIds := by
        intro group member groupId inGroup inFirst
        have whole : (allGroupIds ([first] ++ (rest ++ others))).Nodup := distinct
        exact ids_apart whole (List.mem_singleton_self first) member inFirst inGroup
      refine ⟨?_, ?_, ?_⟩
      · intro group member groupId inGroup
        rw [cut, if_neg (firstApart (List.mem_append_right _ member) inGroup)]
        exact (settled.sparse group member groupId inGroup).1
      · intro groupId outside
        rw [cut, settled.absent groupId outside]
        split <;> rfl
      · intro index group at_index
        obtain ⟨length, greatest, held⟩ := settled.full index group at_index
        refine ⟨length, greatest, ?_⟩
        intro groupId inGroup
        cases index with
        | zero =>
            cases at_index
            have below : final.1 ≤ length := by
              apply greatest.2
              apply common_mono _ settled.greatest.1
              exact fun other member => List.mem_append_left _ (List.mem_of_mem_take member)
            have valid := settled.greatest.1.2 first List.mem_cons_self
            rw [cut, if_pos inGroup, (held groupId inGroup).1, if_pos rfl, Option.map_some,
              lawful.cut first List.mem_cons_self (full first List.mem_cons_self) groupId inGroup
                length final.1 (greatest.1.2 first (by simp)) valid below]
        | succ index =>
            have later : group ∈ rest := List.mem_of_getElem? at_index
            rw [cut, if_neg (firstApart (List.mem_append_left _ later) inGroup),
              (held groupId inGroup).1, if_neg (Nat.succ_ne_zero index)]

/-- The lists that the coordinator returns, by group id. -/
def returnedBlocks (kvCacheGroups : List (KVCacheGroup Detail Cls))
    (groups : List (SpecGroup Detail Cls)) (final : Nat × GroupHits Block) : List (List Block) :=
  (List.range kvCacheGroups.length).map fun groupId =>
    ((truncate kvCacheGroups groups final.1 final.2).blocks groupId).getD []

theorem returned_at {groupId : Nat} (valid : groupId < kvCacheGroups.length) :
    (returnedBlocks kvCacheGroups groups final)[groupId]? =
      some (((truncate kvCacheGroups groups final.1 final.2).blocks groupId).getD []) := by
  simp [returnedBlocks, valid]

variable (lawful : Lawful finders kvCacheGroups (fulls ++ others))
  (full : ∀ group ∈ fulls, group.spec.fullAttention = true)
  (sparse : ∀ group ∈ others, group.spec.fullAttention = false)
  (grouped : Grouped kvCacheGroups (fulls ++ others))
  (settled : Settled finders bound fulls others final)

include lawful full sparse grouped settled

theorem opted_out_returned {groupId : Nat} {cacheGroup : KVCacheGroup Detail Cls}
    (found : kvCacheGroups[groupId]? = some cacheGroup)
    (optsOut : cacheGroup.spec.participatesInPrefixCaching = false) :
    (returnedBlocks kvCacheGroups (fulls ++ others) final)[groupId]? = some [] := by
  have outside : groupId ∉ allGroupIds (fulls ++ others) := by
    rw [grouped.member_iff]
    intro takesPart
    obtain ⟨other, same, takesPart⟩ := takesPart
    cases found.symm.trans same
    rw [optsOut] at takesPart
    cases takesPart
  have absent := (truncated_blocks lawful full sparse grouped.distinct settled).2.1
  rw [returned_at (List.getElem?_eq_some_iff.mp found).1, absent groupId outside]
  rfl

theorem sparse_returned (member : group ∈ others) {groupId : Nat}
    (inGroup : groupId ∈ group.groupIds) :
    (returnedBlocks kvCacheGroups (fulls ++ others) final)[groupId]? =
      some (finders.blocksAt group groupId final.1) := by
  obtain ⟨_, found, _⟩ := grouped.agree group (List.mem_append_right _ member) groupId inGroup
  have held := (truncated_blocks lawful full sparse grouped.distinct settled).1
  rw [returned_at (List.getElem?_eq_some_iff.mp found).1, held group member groupId inGroup]
  rfl

/-- The first full-attention group returns its blocks of the final length, a later one those
of the longest hit that it has in common with the groups before it. -/
theorem full_returned {index : Nat} (found : fulls[index]? = some group) : ∃ length,
    IsGreatest (common finders ((fulls ++ others).take (index + 1)) bound) length ∧
      finders.Valid group length ∧ final.1 ≤ length ∧ ∀ groupId ∈ group.groupIds,
        (returnedBlocks kvCacheGroups (fulls ++ others) final)[groupId]? =
          some (finders.blocksAt group groupId (if index = 0 then final.1 else length)) := by
  have early := (List.getElem?_eq_some_iff.mp found).1
  have inGroups : group ∈ fulls ++ others :=
    List.mem_append_left _ (List.mem_of_getElem? found)
  obtain ⟨length, greatest, blocks⟩ :=
    (truncated_blocks lawful full sparse grouped.distinct settled).2.2 index group found
  have inTaken : group ∈ fulls.take (index + 1) :=
    List.mem_of_getElem? (by rw [List.getElem?_take_of_lt (Nat.lt_succ_self index), found])
  rw [List.take_append_of_le_length early]
  refine ⟨length, greatest, greatest.1.2 group inTaken, ?_, ?_⟩
  · apply greatest.2
    apply common_mono _ settled.greatest.1
    exact fun other member => List.mem_append_left _ (List.mem_of_mem_take member)
  · intro groupId inGroup
    obtain ⟨_, known, _⟩ := grouped.agree group inGroups groupId inGroup
    rw [returned_at (List.getElem?_eq_some_iff.mp known).1, blocks groupId inGroup]
    rfl

/-- A later full-attention group returns its blocks of the final length just in case none of
its hits, common with the groups before it, has more blocks than a hit common to all. -/
theorem trailing_returned_iff {index : Nat} (positive : 0 < index)
    (found : fulls[index]? = some group) :
    (∀ groupId ∈ group.groupIds,
        (returnedBlocks kvCacheGroups (fulls ++ others) final)[groupId]? =
          some (finders.blocksAt group groupId final.1)) ↔
      ∀ length ∈ common finders ((fulls ++ others).take (index + 1)) bound,
        ∃ shorter ∈ common finders (fulls ++ others) bound,
          cdiv length (blockSizeOf kvCacheGroups group.firstGroupId) ≤
            cdiv shorter (blockSizeOf kvCacheGroups group.firstGroupId) := by
  obtain ⟨first, greatest, valid, below, blocks⟩ :=
    full_returned lawful full sparse grouped settled found
  have inFulls : group ∈ fulls := List.mem_of_getElem? found
  have inGroups : group ∈ fulls ++ others := List.mem_append_left _ inFulls
  have validFinal := settled.greatest.1.2 group inGroups
  rw [if_neg positive.ne'] at blocks
  constructor
  · intro returned length member
    have held := returned _ (first_mem_ids group)
    rw [blocks _ (first_mem_ids group), Option.some.injEq] at held
    have lengths := congrArg List.length held
    rw [lawful.filled group inGroups (full group inFulls) _ (first_mem_ids group) first valid,
      lawful.filled group inGroups (full group inFulls) _ (first_mem_ids group) final.1
        validFinal] at lengths
    refine ⟨final.1, settled.greatest.1, ?_⟩
    rw [← lengths]
    exact cdiv_le_cdiv _ (greatest.2 member)
  · intro fit groupId inGroup
    obtain ⟨shorter, member, fits⟩ := fit first greatest.1
    have enough := fits.trans (cdiv_le_cdiv _ (settled.greatest.2 member))
    rw [blocks groupId inGroup, lawful.cut group inGroups (full group inFulls) groupId inGroup
      first final.1 valid validFinal below, List.take_of_length_le]
    rw [lawful.filled group inGroups (full group inFulls) groupId inGroup first valid]
    exact enough

theorem settled_reconciled_iff (uncached : Int) :
    Reconciled finders kvCacheGroups (fulls ++ others) bound
        (returnedBlocks kvCacheGroups (fulls ++ others) final, final.1, uncached) ↔
      TrailingFullsFit finders kvCacheGroups (fulls ++ others) bound := by
  constructor
  · intro reconciled index group positive at_index isFull
    have found : fulls[index]? = some group := by
      rcases Nat.lt_or_ge index fulls.length with early | late
      · rwa [List.getElem?_append_left early] at at_index
      · rw [List.getElem?_append_right late] at at_index
        rw [sparse group (List.mem_of_getElem? at_index)] at isFull
        cases isFull
    apply (trailing_returned_iff lawful full sparse grouped settled positive found).mp
    exact reconciled.held group (List.mem_append_left _ (List.mem_of_getElem? found))
  · intro fit
    refine ⟨settled.greatest, ?_, fun groupId cacheGroup found optsOut =>
      opted_out_returned lawful full sparse grouped settled found optsOut⟩
    intro group member
    rcases List.mem_append.mp member with isFull | isSparse
    · obtain ⟨index, found⟩ := List.mem_iff_getElem?.mp isFull
      by_cases zero : index = 0
      · obtain ⟨length, _, _, _, blocks⟩ :=
          full_returned lawful full sparse grouped settled found
        rw [if_pos zero] at blocks
        exact blocks
      · have positive := Nat.pos_of_ne_zero zero
        apply (trailing_returned_iff lawful full sparse grouped settled positive found).mpr
        apply fit index group positive _ (full group isFull)
        rw [List.getElem?_append_left (List.getElem?_eq_some_iff.mp found).1, found]
    · exact fun groupId inGroup =>
        sparse_returned lawful full sparse grouped settled isSparse inGroup

end Result

variable [DecidableEq Detail] [DecidableEq Cls]

/-- The coordinator returns the longest common hit. The blocks of all groups are those of
that hit just in case the full-attention groups after the first one fit. -/
theorem longest_hit_reconciled_iff
    (verified : verifyAndSplitKvCacheGroups kvCacheGroups = .ok groups)
    (lawful : Lawful finders kvCacheGroups groups) (bound : Nat) :
    Reconciled finders kvCacheGroups groups bound
        (findLongestCacheHit kvCacheGroups finders groups bound) ↔
      TrailingFullsFit finders kvCacheGroups groups bound := by
  obtain ⟨grouped, several, sorted⟩ := verify_and_split_spec verified
  unfold fullAttentionFirst at sorted
  have full : ∀ group ∈ groups.filter fun group => group.spec.fullAttention,
      group.spec.fullAttention = true := fun group member => (List.mem_filter.mp member).2
  have sparse : ∀ group ∈ groups.filter fun group => !group.spec.fullAttention,
      group.spec.fullAttention = false := by
    intro group member
    simpa using (List.mem_filter.mp member).2
  generalize groups.filter (fun group => group.spec.fullAttention) = fulls at sorted full
  generalize groups.filter (fun group => !group.spec.fullAttention) = others at sorted sparse
  subst sorted
  exact settled_reconciled_iff lawful full sparse grouped
    (search_settles lawful full sparse grouped.distinct several bound) _

/-- Groups whose hits are cut at a limit of their own, with the block numbers as blocks. -/
def limitedFinders (limit : Nat → Nat) : StockFinders Nat Unit Nat where
  alignmentTokens := 1
  find group bound := (group.groupIds.map fun _ => List.range (min bound (limit group.spec.detail)),
    min bound (limit group.spec.detail))
  Valid group length := length ≤ limit group.spec.detail
  blocksAt _ _ length := List.range length

theorem limited_lawful (limit : Nat → Nat) {kvCacheGroups : List (KVCacheGroup Nat Unit)}
    {groups : List (SpecGroup Nat Unit)}
    (unit : ∀ group ∈ groups, blockSizeOf kvCacheGroups group.firstGroupId = 1) :
    Lawful (limitedFinders limit) kvCacheGroups groups := by
  constructor
  · exact fun _ _ _ => min_le_right _ _
  · exact fun _ _ _ => min_le_left _ _
  · exact fun _ _ _ _ below valid => le_min below valid
  · exact fun _ _ _ => rfl
  · exact fun _ _ length _ => one_dvd length
  · exact fun _ _ _ _ _ valid below _ => below.trans valid
  · intro group member _ groupId _ length shorter _ _ below
    rw [unit group member]
    simp [limitedFinders, cdiv, List.take_range, below]
  · intro group member _ groupId _ length _
    rw [unit group member]
    simp [limitedFinders, cdiv]

/-- Two full-attention groups, one of another kind and one that takes no part. -/
def mixedGroups : List (KVCacheGroup Nat Unit) :=
  [⟨⟨false, true, 2⟩, (), 1⟩, ⟨⟨true, true, 0⟩, (), 1⟩, ⟨⟨true, true, 1⟩, (), 1⟩,
    ⟨⟨true, false, 3⟩, (), 1⟩]

def mixedSplit : List (SpecGroup Nat Unit) :=
  [⟨⟨true, true, 0⟩, 1, [], ()⟩, ⟨⟨true, true, 1⟩, 2, [], ()⟩, ⟨⟨false, true, 2⟩, 0, [], ()⟩]

theorem mixed_split : verifyAndSplitKvCacheGroups mixedGroups = .ok mixedSplit := rfl

theorem mixed_unit : ∀ group ∈ mixedSplit, blockSizeOf mixedGroups group.firstGroupId = 1 := by
  simp [mixedSplit, mixedGroups, blockSizeOf]

/-- The limits of the counterexample: the last group shortens the hit to one block. -/
def shorteningLimit (detail : Nat) : Nat := if detail = 2 then 1 else 2

theorem shortened_search : (search (limitedFinders shorteningLimit) mixedSplit false 2 .start) =
    (1, (pass (limitedFinders shorteningLimit) mixedSplit
      (pass (limitedFinders shorteningLimit) mixedSplit (2, .start))).2) := by
  have first : ¬2 ≤ (pass (limitedFinders shorteningLimit) mixedSplit (2, .start)).1 := by decide
  have again : (pass (limitedFinders shorteningLimit) mixedSplit (2, .start)).1 ≤
      (pass (limitedFinders shorteningLimit) mixedSplit
        (pass (limitedFinders shorteningLimit) mixedSplit (2, .start))).1 := by
    decide
  rw [search]
  simp only [first, if_false, Bool.false_eq_true]
  rw [search]
  simp only [Prod.mk.eta, again, if_true]
  rfl

/-- The second full-attention group keeps two blocks. -/
theorem second_full_group_overlong :
    Lawful (limitedFinders shorteningLimit) mixedGroups mixedSplit ∧
      ¬Reconciled (limitedFinders shorteningLimit) mixedGroups mixedSplit 2
        (findLongestCacheHit mixedGroups (limitedFinders shorteningLimit) mixedSplit 2) := by
  refine ⟨limited_lawful _ mixed_unit, ?_⟩
  intro reconciled
  have isSimple : (decide (mixedSplit.length = 2) && startsFull mixedSplit) = false := rfl
  have held := reconciled.held ⟨⟨true, true, 1⟩, 2, [], ()⟩ (by simp [mixedSplit]) 2
    (List.mem_singleton_self 2)
  unfold findLongestCacheHit at held
  simp only [isSimple, shortened_search] at held
  revert held
  decide

/-- With one common limit no group is shortened. -/
theorem equal_limits_reconciled : Reconciled (limitedFinders fun _ => 2) mixedGroups mixedSplit 5
    (findLongestCacheHit mixedGroups (limitedFinders fun _ => 2) mixedSplit 5) := by
  apply (longest_hit_reconciled_iff mixed_split (limited_lawful _ mixed_unit) 5).mpr
  intro index group _ at_index _ length member
  refine ⟨length, ⟨member.1, ?_⟩, le_rfl⟩
  intro other _
  apply member.2 group
  apply List.mem_of_getElem? (i := index)
  rw [List.getElem?_take_of_lt (Nat.lt_succ_self index), at_index]

end KvOffload.CacheHitResults
