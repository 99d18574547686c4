import KvOffload.CacheHitGroups
import Mathlib.Order.Bounds.Basic

/-!
# The longest cache hit of all groups

`find_longest_cache_hit` of the hybrid coordinator without EAGLE groups. Every group in
turn shortens the candidate until a whole pass leaves it alone. A full-attention group is
looked up in the first pass only, so that its blocks are those of its first hit; at the end
they are cut to the final length for the first group alone.
-/

namespace KvOffload.CacheHitSearch

open KvOffload KvOffload.Base KvOffload.CacheHitGroups

set_option autoImplicit false

variable {Detail Cls Block : Type}

/-- The per-group finders, over fixed block hashes and a fixed pool: `find` gives the
blocks of every group id and the length of the hit, at most the given one. -/
structure StockFinders (Detail Cls Block : Type) where
  alignmentTokens : Nat
  find : SpecGroup Detail Cls → Nat → List (List Block) × Nat
  Valid : SpecGroup Detail Cls → Nat → Prop
  blocksAt : SpecGroup Detail Cls → Nat → Nat → List Block

def blockSizeOf (kvCacheGroups : List (KVCacheGroup Detail Cls)) (groupId : Nat) : Nat :=
  (kvCacheGroups[groupId]?).elim 0 KVCacheGroup.blockSize

/-- What the search relies on: the hit is the longest valid one, and a shorter aligned hit
of full attention is valid with fewer of the same blocks. -/
structure Lawful (finders : StockFinders Detail Cls Block)
    (kvCacheGroups : List (KVCacheGroup Detail Cls)) (groups : List (SpecGroup Detail Cls)) :
    Prop where
  valid : ∀ group ∈ groups, ∀ bound, finders.Valid group (finders.find group bound).2
  le_bound : ∀ group ∈ groups, ∀ bound, (finders.find group bound).2 ≤ bound
  longest : ∀ group ∈ groups, ∀ bound length, length ≤ bound → finders.Valid group length →
    length ≤ (finders.find group bound).2
  blocks : ∀ group ∈ groups, ∀ bound, (finders.find group bound).1 =
    group.groupIds.map fun groupId =>
      finders.blocksAt group groupId (finders.find group bound).2
  aligned : ∀ group ∈ groups, ∀ length, finders.Valid group length →
    finders.alignmentTokens ∣ length
  closed : ∀ group ∈ groups, group.spec.fullAttention = true → ∀ length shorter,
    finders.Valid group length → shorter ≤ length → finders.alignmentTokens ∣ shorter →
      finders.Valid group shorter
  cut : ∀ group ∈ groups, group.spec.fullAttention = true → ∀ groupId ∈ group.groupIds,
    ∀ length shorter, finders.Valid group length → finders.Valid group shorter →
      shorter ≤ length →
        finders.blocksAt group groupId shorter = (finders.blocksAt group groupId length).take
          (cdiv shorter (blockSizeOf kvCacheGroups group.firstGroupId))
  filled : ∀ group ∈ groups, group.spec.fullAttention = true → ∀ groupId ∈ group.groupIds,
    ∀ length, finders.Valid group length → (finders.blocksAt group groupId length).length =
      cdiv length (blockSizeOf kvCacheGroups group.firstGroupId)

/-- The hits per group id; `longest` is the longest hit of any group. -/
structure GroupHits (Block : Type) where
  blocks : Nat → Option (List Block)
  lengths : Nat → Nat
  longest : Nat

namespace GroupHits

def start : GroupHits Block := ⟨fun _ => none, fun _ => 0, 0⟩

def record (length : Nat) : List (Nat × List Block) → GroupHits Block → GroupHits Block
  | [], hits => hits
  | (groupId, found) :: rest, hits => record length rest { hits with
      blocks := fun other => if other = groupId then some found else hits.blocks other
      lengths := fun other => if other = groupId then length else hits.lengths other }

end GroupHits

/-- The body of the `for` loop; a state is the current length with the hits so far. -/
def visit (finders : StockFinders Detail Cls Block) (state : Nat × GroupHits Block)
    (group : SpecGroup Detail Cls) : Nat × GroupHits Block :=
  if group.spec.fullAttention ∧ (state.2.blocks group.firstGroupId).isSome then
    (min state.1 (state.2.lengths group.firstGroupId), state.2)
  else
    let (found, length) := finders.find group state.1
    let hits := state.2.record length (group.groupIds.zip found)
    (length, { hits with longest := max hits.longest length })

def pass (finders : StockFinders Detail Cls Block) (groups : List (SpecGroup Detail Cls))
    (state : Nat × GroupHits Block) : Nat × GroupHits Block :=
  groups.foldl (visit finders) state

/-- The `while` loop. -/
def search (finders : StockFinders Detail Cls Block) (groups : List (SpecGroup Detail Cls))
    (isSimpleHybrid : Bool) (hitLength : Nat) (hits : GroupHits Block) :
    Nat × GroupHits Block :=
  let next := pass finders groups (hitLength, hits)
  if hitLength ≤ next.1 then (hitLength, next.2)
  else if isSimpleHybrid then next
  else search finders groups isSimpleHybrid next.1 next.2
termination_by hitLength
decreasing_by exact not_le.mp ‹_›

def startsFull (groups : List (SpecGroup Detail Cls)) : Bool :=
  groups.head?.any fun group => group.spec.fullAttention

/-- The blocks of the first group, if it is full attention, are cut to the final length. -/
def truncate (kvCacheGroups : List (KVCacheGroup Detail Cls))
    (groups : List (SpecGroup Detail Cls)) (hitLength : Nat) (hits : GroupHits Block) :
    GroupHits Block :=
  match groups with
  | [] => hits
  | first :: _ =>
      if first.spec.fullAttention then
        let numBlocks := cdiv hitLength (blockSizeOf kvCacheGroups first.firstGroupId)
        { hits with
          blocks := fun groupId =>
            if groupId ∈ first.groupIds then (hits.blocks groupId).map (List.take numBlocks)
            else hits.blocks groupId
          lengths := fun groupId =>
            if groupId ∈ first.groupIds ∧ (hits.blocks groupId).isSome then hitLength
            else hits.lengths groupId }
      else hits

/-- The blocks per group id, the length of the hit, and the uncached common prefix. -/
def findLongestCacheHit (kvCacheGroups : List (KVCacheGroup Detail Cls))
    (finders : StockFinders Detail Cls Block) (groups : List (SpecGroup Detail Cls))
    (maxCacheHitLength : Nat) : List (List Block) × Nat × Int :=
  let isSimpleHybrid := decide (groups.length = 2) && startsFull groups
  let (hitLength, hits) := search finders groups isSimpleHybrid maxCacheHitLength .start
  let hits := truncate kvCacheGroups groups hitLength hits
  ((List.range kvCacheGroups.length).map fun groupId => (hits.blocks groupId).getD [],
    hitLength, (hits.longest : Int) - hitLength)

/-- The lengths that are valid for every group. -/
def common (finders : StockFinders Detail Cls Block) (groups : List (SpecGroup Detail Cls))
    (bound : Nat) : Set Nat :=
  {length | length ≤ bound ∧ ∀ group ∈ groups, finders.Valid group length}

variable {finders : StockFinders Detail Cls Block}
  {kvCacheGroups : List (KVCacheGroup Detail Cls)}
  {groups fulls others : List (SpecGroup Detail Cls)}
  {group : SpecGroup Detail Cls} {hits : GroupHits Block} {bound current : Nat}

theorem common_mono {fewer more : List (SpecGroup Detail Cls)} (within : fewer ⊆ more)
    {length : Nat} (member : length ∈ common finders more bound) :
    length ∈ common finders fewer bound :=
  ⟨member.1, fun group inFewer => member.2 group (within inFewer)⟩

/-- A recorded id holds its blocks, any other id what it held. -/
theorem record_get (length : Nat) (blocksOf : Nat → List Block) (groupIds : List Nat)
    (hits : GroupHits Block) (groupId : Nat) :
    ((hits.record length (groupIds.zip (groupIds.map blocksOf))).blocks groupId =
        if groupId ∈ groupIds then some (blocksOf groupId) else hits.blocks groupId) ∧
      (hits.record length (groupIds.zip (groupIds.map blocksOf))).lengths groupId =
        if groupId ∈ groupIds then length else hits.lengths groupId := by
  induction groupIds generalizing hits with
  | nil => exact ⟨rfl, rfl⟩
  | cons first rest ih =>
      rw [List.map_cons, List.zip_cons_cons, GroupHits.record]
      obtain ⟨blocks, lengths⟩ := ih { hits with
        blocks := fun other => if other = first then some (blocksOf first) else hits.blocks other
        lengths := fun other => if other = first then length else hits.lengths other }
      rw [blocks, lengths]
      simp only [List.mem_cons]
      by_cases here : groupId = first
      · simp [here]
      · simp [here]

/-- The blocks of a group are those of a length. -/
def HeldAt (finders : StockFinders Detail Cls Block) (hits : GroupHits Block)
    (group : SpecGroup Detail Cls) (length : Nat) : Prop :=
  ∀ groupId ∈ group.groupIds, hits.blocks groupId = some (finders.blocksAt group groupId length) ∧
    hits.lengths groupId = length

theorem first_mem_ids (group : SpecGroup Detail Cls) : group.firstGroupId ∈ group.groupIds :=
  List.mem_cons_self

/-- A lookup records the longest valid length and touches no other id. -/
theorem visit_lookup (lawful : Lawful finders kvCacheGroups groups) (listed : group ∈ groups)
    (looksUp : ¬(group.spec.fullAttention ∧ (hits.blocks group.firstGroupId).isSome)) :
    (visit finders (current, hits) group).1 = (finders.find group current).2 ∧
      HeldAt finders (visit finders (current, hits) group).2 group
        (finders.find group current).2 ∧
      ∀ groupId ∉ group.groupIds,
        (visit finders (current, hits) group).2.blocks groupId = hits.blocks groupId ∧
          (visit finders (current, hits) group).2.lengths groupId = hits.lengths groupId := by
  unfold visit
  rw [if_neg looksUp]
  have found := lawful.blocks group listed current
  generalize finders.find group current = answer at found ⊢
  obtain ⟨blocks, length⟩ := answer
  simp only at found ⊢
  have recorded := record_get length (fun groupId => finders.blocksAt group groupId length)
    group.groupIds hits
  rw [← found] at recorded
  refine ⟨trivial, ?_, ?_⟩
  · intro groupId member
    obtain ⟨held, lengths⟩ := recorded groupId
    rw [if_pos member] at held lengths
    exact ⟨held, lengths⟩
  · intro groupId outside
    obtain ⟨held, lengths⟩ := recorded groupId
    rw [if_neg outside] at held lengths
    exact ⟨held, lengths⟩

/-- The full-attention groups hold the longest hit of themselves and those before them. -/
def FullHits (finders : StockFinders Detail Cls Block) (bound : Nat)
    (fulls : List (SpecGroup Detail Cls)) (hits : GroupHits Block) : Prop :=
  ∀ index group, fulls[index]? = some group → ∃ length,
    IsGreatest (common finders (fulls.take (index + 1)) bound) length ∧
      HeldAt finders hits group length

theorem full_hits_kept {after : GroupHits Block} (full : FullHits finders bound fulls hits)
    (kept : ∀ group ∈ fulls, ∀ groupId ∈ group.groupIds,
      after.blocks groupId = hits.blocks groupId ∧ after.lengths groupId = hits.lengths groupId) :
    FullHits finders bound fulls after := by
  intro index group found
  obtain ⟨length, greatest, held⟩ := full index group found
  refine ⟨length, greatest, ?_⟩
  intro groupId member
  obtain ⟨blocks, lengths⟩ := kept group (List.mem_of_getElem? found) groupId member
  rw [blocks, lengths]
  exact held groupId member

/-- Groups of one list share no id. -/
theorem ids_apart {left right : List (SpecGroup Detail Cls)}
    (distinct : (allGroupIds (left ++ right)).Nodup) {first second : SpecGroup Detail Cls}
    (inLeft : first ∈ left) (inRight : second ∈ right) {groupId : Nat}
    (member : groupId ∈ first.groupIds) : groupId ∉ second.groupIds := by
  rw [allGroupIds, List.flatMap_append, List.nodup_append] at distinct
  intro other
  exact distinct.2.2 groupId (List.mem_flatMap.mpr ⟨first, inLeft, member⟩) groupId
    (List.mem_flatMap.mpr ⟨second, inRight, other⟩) rfl

/-- One more full-attention group in the first pass. -/
theorem full_visit (lawful : Lawful finders kvCacheGroups groups)
    {done : List (SpecGroup Detail Cls)} (listed : done ++ [group] ⊆ groups)
    (full : ∀ group ∈ done, group.spec.fullAttention = true)
    (distinct : (allGroupIds (done ++ [group])).Nodup)
    (fresh : hits.blocks group.firstGroupId = none)
    (greatest : IsGreatest (common finders done bound) current)
    (found : FullHits finders bound done hits) :
    IsGreatest (common finders (done ++ [group]) bound)
        (visit finders (current, hits) group).1 ∧
      FullHits finders bound (done ++ [group]) (visit finders (current, hits) group).2 := by
  have inGroups : group ∈ groups := listed (List.mem_append_right _ (List.mem_singleton_self _))
  obtain ⟨length, held, untouched⟩ := @visit_lookup _ _ _ _ _ _ group hits current lawful
    inGroups (by simp [fresh])
  rw [length]
  have top : IsGreatest (common finders (done ++ [group]) bound)
      (finders.find group current).2 := by
    have valid := lawful.valid group inGroups current
    have below := lawful.le_bound group inGroups current
    constructor
    · refine ⟨below.trans greatest.1.1, ?_⟩
      intro other member
      rcases List.mem_append.mp member with earlier | this
      · exact lawful.closed other (listed (List.mem_append_left _ earlier)) (full other earlier)
          _ _ (greatest.1.2 other earlier) below (lawful.aligned group inGroups _ valid)
      · obtain rfl := List.mem_singleton.mp this
        exact valid
    · intro shorter member
      apply lawful.longest group inGroups current
      · exact greatest.2 (common_mono (List.subset_append_left _ _) member)
      · exact member.2 group (List.mem_append_right _ (List.mem_singleton_self _))
  refine ⟨top, ?_⟩
  have kept : FullHits finders bound done (visit finders (current, hits) group).2 :=
    full_hits_kept found fun other member groupId inOther =>
      untouched groupId (ids_apart distinct member (List.mem_singleton_self _) inOther)
  intro index other at_index
  rcases Nat.lt_or_ge index done.length with early | late
  · rw [List.getElem?_append_left early] at at_index
    obtain ⟨length, longest, heldAt⟩ := kept index other at_index
    rw [List.take_append_of_le_length early]
    exact ⟨length, longest, heldAt⟩
  · have bounded := (List.getElem?_eq_some_iff.mp at_index).1
    rw [List.length_append, List.length_singleton] at bounded
    have last : index = done.length := by omega
    subst last
    rw [List.getElem?_concat_length] at at_index
    cases at_index
    rw [List.take_of_length_le (by simp)]
    exact ⟨_, top, held⟩

/-- The first pass over the full-attention groups. -/
theorem full_pass (lawful : Lawful finders kvCacheGroups groups)
    (rest : List (SpecGroup Detail Cls)) {done : List (SpecGroup Detail Cls)}
    (listed : done ++ rest ⊆ groups)
    (full : ∀ group ∈ done ++ rest, group.spec.fullAttention = true)
    (distinct : (allGroupIds (done ++ rest)).Nodup)
    (fresh : ∀ groupId ∉ allGroupIds done, hits.blocks groupId = none)
    (greatest : IsGreatest (common finders done bound) current)
    (found : FullHits finders bound done hits) :
    IsGreatest (common finders (done ++ rest) bound)
        (pass finders rest (current, hits)).1 ∧
      FullHits finders bound (done ++ rest) (pass finders rest (current, hits)).2 ∧
      ∀ groupId ∉ allGroupIds (done ++ rest),
        (pass finders rest (current, hits)).2.blocks groupId = none := by
  induction rest generalizing done current hits with
  | nil =>
      rw [List.append_nil]
      exact ⟨greatest, found, fresh⟩
  | cons group rest ih =>
      have shift : done ++ group :: rest = done ++ [group] ++ rest := by simp
      rw [shift] at listed full distinct ⊢
      have firstListed : done ++ [group] ⊆ groups :=
        fun other member => listed (List.mem_append_left _ member)
      have firstDistinct : (allGroupIds (done ++ [group])).Nodup := by
        rw [allGroupIds, List.flatMap_append] at distinct
        exact (List.nodup_append.mp distinct).1
      have outside : ∀ groupId ∈ group.groupIds, groupId ∉ allGroupIds done := by
        intro groupId inGroup inDone
        obtain ⟨other, member, inOther⟩ := List.mem_flatMap.mp inDone
        exact ids_apart firstDistinct member (List.mem_singleton_self group) inOther inGroup
      have unseen := fresh _ (outside _ (first_mem_ids group))
      obtain ⟨top, held⟩ := full_visit lawful firstListed
        (fun other member => full other (List.mem_append_left _ (List.mem_append_left _ member)))
        firstDistinct unseen greatest found
      obtain ⟨_, _, untouched⟩ := @visit_lookup _ _ _ _ _ _ group hits current lawful
        (firstListed (List.mem_append_right _ (List.mem_singleton_self _))) (by simp [unseen])
      apply ih listed full distinct _ top held
      intro groupId notSeen
      rw [allGroupIds, List.flatMap_append, List.mem_append, not_or] at notSeen
      rw [(untouched groupId (by simpa using notSeen.2)).1]
      exact fresh groupId notSeen.1

/-- A later pass leaves the full-attention groups alone below their hits. -/
theorem full_pass_again (full : ∀ group ∈ fulls, group.spec.fullAttention = true)
    (held : ∀ group ∈ fulls, (hits.blocks group.firstGroupId).isSome = true ∧
      current ≤ hits.lengths group.firstGroupId) :
    pass finders fulls (current, hits) = (current, hits) := by
  induction fulls with
  | nil => rfl
  | cons group rest ih =>
      obtain ⟨some, below⟩ := held group List.mem_cons_self
      have first : visit finders (current, hits) group = (current, hits) := by
        unfold visit
        rw [if_pos ⟨full group List.mem_cons_self, some⟩, min_eq_left below]
      unfold pass at ih ⊢
      rw [List.foldl_cons, first]
      exact ih (fun other member => full other (.tail _ member))
        fun other member => held other (.tail _ member)

/-- A pass over the other groups: each holds a valid length between the last and the first. -/
theorem others_pass (lawful : Lawful finders kvCacheGroups groups) (listed : others ⊆ groups)
    (sparse : ∀ group ∈ others, group.spec.fullAttention = false)
    (distinct : (allGroupIds others).Nodup) :
    (pass finders others (current, hits)).1 ≤ current ∧
      (∀ length ≤ current, (∀ group ∈ others, finders.Valid group length) →
        length ≤ (pass finders others (current, hits)).1) ∧
      (∀ group ∈ others, ∃ length, (pass finders others (current, hits)).1 ≤ length ∧
        length ≤ current ∧ finders.Valid group length ∧
          HeldAt finders (pass finders others (current, hits)).2 group length) ∧
      (∀ groupId ∉ allGroupIds others,
        (pass finders others (current, hits)).2.blocks groupId = hits.blocks groupId ∧
          (pass finders others (current, hits)).2.lengths groupId = hits.lengths groupId) ∧
      (others ≠ [] → ∃ group ∈ others,
        finders.Valid group (pass finders others (current, hits)).1) := by
  induction others generalizing current hits with
  | nil => exact ⟨le_rfl, fun _ below _ => below, by simp, fun _ _ => ⟨rfl, rfl⟩, by simp⟩
  | cons group rest ih =>
      have looksUp : ¬(group.spec.fullAttention = true ∧
          (hits.blocks group.firstGroupId).isSome = true) := by
        rw [sparse group List.mem_cons_self]
        simp
      have inGroups : group ∈ groups := listed List.mem_cons_self
      obtain ⟨length, held, untouched⟩ := @visit_lookup _ _ _ _ _ _ group hits current lawful
        inGroups looksUp
      have valid := lawful.valid group inGroups current
      have below := lawful.le_bound group inGroups current
      have longest := lawful.longest group inGroups current
      have shift : pass finders (group :: rest) (current, hits) =
          pass finders rest (visit finders (current, hits) group) := rfl
      rw [shift]
      generalize visit finders (current, hits) group = next at length held untouched ⊢
      obtain ⟨nextLength, nextHits⟩ := next
      simp only at length held untouched
      subst length
      have whole : (allGroupIds ([group] ++ rest)).Nodup := distinct
      have restDistinct : (allGroupIds rest).Nodup := by
        rw [allGroupIds, List.flatMap_append] at whole
        exact (List.nodup_append.mp whole).2.1
      obtain ⟨decreases, keeps, holds, frames, last⟩ :=
        @ih nextHits (finders.find group current).2 (fun other member => listed (.tail _ member))
          (fun other member => sparse other (.tail _ member)) restDistinct
      refine ⟨decreases.trans below, ?_, ?_, ?_, ?_⟩
      · intro shorter within allValid
        exact keeps shorter (longest shorter within (allValid group List.mem_cons_self))
          fun other member => allValid other (.tail _ member)
      · intro other member
        rcases List.mem_cons.mp member with rfl | later
        · refine ⟨_, decreases, below, valid, ?_⟩
          intro groupId inOther
          have outside : groupId ∉ allGroupIds rest := by
            intro inRest
            obtain ⟨third, inList, inThird⟩ := List.mem_flatMap.mp inRest
            exact ids_apart whole (List.mem_singleton_self _) inList inOther inThird
          rw [(frames groupId outside).1, (frames groupId outside).2]
          exact held groupId inOther
        · obtain ⟨length, low, high, rest⟩ := holds other later
          exact ⟨length, low, high.trans below, rest⟩
      · intro groupId outside
        rw [allGroupIds, List.flatMap_cons, List.mem_append, not_or] at outside
        obtain ⟨blocks, lengths⟩ := frames groupId outside.2
        rw [blocks, lengths]
        exact untouched groupId outside.1
      · intro _
        by_cases none : rest = []
        · subst none
          exact ⟨group, List.mem_cons_self, valid⟩
        · obtain ⟨other, member, validLast⟩ := last none
          exact ⟨other, .tail _ member, validLast⟩

/-- The end of the loop: the longest common hit, at which every group but those of full
attention holds its blocks. -/
structure Settled (finders : StockFinders Detail Cls Block) (bound : Nat)
    (fulls others : List (SpecGroup Detail Cls)) (final : Nat × GroupHits Block) : Prop where
  greatest : IsGreatest (common finders (fulls ++ others) bound) final.1
  full : FullHits finders bound fulls final.2
  sparse : ∀ group ∈ others, HeldAt finders final.2 group final.1
  absent : ∀ groupId ∉ allGroupIds (fulls ++ others), final.2.blocks groupId = none

/-- A state in which every pass but the first begins. -/
structure Resumed (finders : StockFinders Detail Cls Block) (bound : Nat)
    (fulls others : List (SpecGroup Detail Cls)) (state : Nat × GroupHits Block) : Prop where
  upper : state.1 ∈ upperBounds (common finders (fulls ++ others) bound)
  aligned : finders.alignmentTokens ∣ state.1
  covered : ∃ top ∈ common finders fulls bound, state.1 ≤ top
  full : FullHits finders bound fulls state.2
  absent : ∀ groupId ∉ allGroupIds (fulls ++ others), state.2.blocks groupId = none

section Loop

variable (lawful : Lawful finders kvCacheGroups (fulls ++ others))
  (full : ∀ group ∈ fulls, group.spec.fullAttention = true)
  (sparse : ∀ group ∈ others, group.spec.fullAttention = false)
  (distinct : (allGroupIds (fulls ++ others)).Nodup)

include lawful full

/-- The end is a state at whose length the other groups are valid and hold their blocks. -/
theorem settled_of_held {state : Nat × GroupHits Block}
    (resumed : Resumed finders bound fulls others state)
    (held : ∀ group ∈ others, finders.Valid group state.1 ∧
      HeldAt finders state.2 group state.1) : Settled finders bound fulls others state := by
  obtain ⟨top, inTop, within⟩ := resumed.covered
  refine ⟨⟨⟨within.trans inTop.1, ?_⟩, resumed.upper⟩, resumed.full, fun group member =>
    (held group member).2, resumed.absent⟩
  intro group member
  rcases List.mem_append.mp member with inFulls | inOthers
  · exact lawful.closed group member (full group inFulls) top state.1 (inTop.2 group inFulls)
      within resumed.aligned
  · exact (held group inOthers).1

include sparse distinct

/-- Below the hit of full attention, a pass over the other groups leads to the same kind of
state, or to the end when no group has shortened the hit. -/
theorem others_resumed {top : Nat} (inTop : top ∈ common finders fulls bound)
    (within : current ≤ top) (found : FullHits finders bound fulls hits)
    (absent : ∀ groupId ∉ allGroupIds (fulls ++ others), hits.blocks groupId = none)
    (upper : current ∈ upperBounds (common finders (fulls ++ others) bound))
    (aligned : others = [] → finders.alignmentTokens ∣ current) :
    Resumed finders bound fulls others (pass finders others (current, hits)) ∧
      (current ≤ (pass finders others (current, hits)).1 →
        Settled finders bound fulls others
          (current, (pass finders others (current, hits)).2)) := by
  have othersDistinct : (allGroupIds others).Nodup := by
    rw [allGroupIds, List.flatMap_append] at distinct
    exact (List.nodup_append.mp distinct).2.1
  obtain ⟨decreases, keeps, holds, frames, last⟩ :=
    @others_pass _ _ _ _ _ _ others hits current lawful (List.subset_append_right _ _) sparse
      othersDistinct
  generalize pass finders others (current, hits) = after at decreases keeps holds frames last ⊢
  obtain ⟨length, afterHits⟩ := after
  simp only at decreases keeps holds frames last ⊢
  have afterFull : FullHits finders bound fulls afterHits := by
    apply full_hits_kept found
    intro group member groupId inGroup
    apply frames
    intro inOthers
    obtain ⟨other, otherMember, inOther⟩ := List.mem_flatMap.mp inOthers
    exact ids_apart distinct member otherMember inGroup inOther
  have afterAbsent : ∀ groupId ∉ allGroupIds (fulls ++ others),
      afterHits.blocks groupId = none := by
    intro groupId outside
    have notOther : groupId ∉ allGroupIds others := by
      rw [allGroupIds, List.flatMap_append, List.mem_append, not_or] at outside
      exact outside.2
    rw [(frames groupId notOther).1]
    exact absent groupId outside
  have afterAligned : finders.alignmentTokens ∣ length := by
    by_cases none : others = []
    · have same : current ≤ length := keeps current le_rfl (by simp [none])
      rw [Nat.le_antisymm decreases same]
      exact aligned none
    · obtain ⟨group, inOthers, valid⟩ := last none
      exact lawful.aligned group (List.mem_append_right _ inOthers) length valid
  have afterUpper : length ∈ upperBounds (common finders (fulls ++ others) bound) := by
    intro shorter member
    exact keeps shorter (upper member) fun group inOthers =>
      member.2 group (List.mem_append_right _ inOthers)
  have resumed : Resumed finders bound fulls others (length, afterHits) :=
    ⟨afterUpper, afterAligned, ⟨top, inTop, decreases.trans within⟩, afterFull, afterAbsent⟩
  refine ⟨resumed, ?_⟩
  intro stays
  obtain rfl : length = current := Nat.le_antisymm decreases stays
  apply settled_of_held lawful full resumed
  intro group member
  obtain ⟨held, low, high, valid, heldAt⟩ := holds group member
  obtain rfl := Nat.le_antisymm high low
  exact ⟨valid, heldAt⟩

theorem search_resumed (current : Nat) {hits : GroupHits Block}
    (resumed : Resumed finders bound fulls others (current, hits)) :
    Settled finders bound fulls others
      (search finders (fulls ++ others) false current hits) := by
  induction current using Nat.strong_induction_on generalizing hits with
  | _ current ih =>
      obtain ⟨top, inTop, within⟩ := resumed.covered
      have again : pass finders fulls (current, hits) = (current, hits) := by
        apply full_pass_again full
        intro group member
        obtain ⟨index, found⟩ := List.mem_iff_getElem?.mp member
        obtain ⟨length, greatest, held⟩ := resumed.full index group found
        obtain ⟨blocks, lengths⟩ := held _ (first_mem_ids group)
        rw [blocks, lengths]
        refine ⟨rfl, within.trans ?_⟩
        exact greatest.2 (common_mono (List.take_subset _ _) inTop)
      have passed : pass finders (fulls ++ others) (current, hits) =
          pass finders others (current, hits) := by
        unfold pass at again ⊢
        rw [List.foldl_append, again]
      obtain ⟨next, settles⟩ := others_resumed lawful full sparse distinct inTop within
        resumed.full resumed.absent resumed.upper fun _ => resumed.aligned
      rw [search]
      simp only [passed, Bool.false_eq_true, if_false]
      by_cases stays : current ≤ (pass finders others (current, hits)).1
      · rw [if_pos stays]
        exact settles stays
      · rw [if_neg stays]
        exact ih _ (not_le.mp stays) next

/-- From the start, with the early end of the simple hybrid: a single group besides a
full-attention one holds its blocks at the length that its lookup has returned. -/
theorem search_settles (several : 1 < (fulls ++ others).length) (bound : Nat) :
    Settled finders bound fulls others
      (search finders (fulls ++ others)
        (decide ((fulls ++ others).length = 2) && startsFull (fulls ++ others)) bound .start) := by
  have begins : IsGreatest (common finders ([] : List (SpecGroup Detail Cls)) bound) bound := by
    constructor
    · exact ⟨le_rfl, by simp⟩
    · exact fun _ member => member.1
  have fullDistinct : (allGroupIds ([] ++ fulls)).Nodup := by
    rw [allGroupIds, List.flatMap_append] at distinct
    exact (List.nodup_append.mp distinct).1
  obtain ⟨greatest, found, absent⟩ := @full_pass _ _ _ finders kvCacheGroups _ .start bound bound
    lawful fulls [] (List.subset_append_left _ _) full fullDistinct (fun _ _ => rfl) begins
    (by simp [FullHits])
  rw [List.nil_append] at greatest found absent
  have passed : pass finders (fulls ++ others) (bound, .start) =
      pass finders others (pass finders fulls (bound, .start)) := List.foldl_append
  rw [search]
  simp only [passed]
  generalize pass finders fulls (bound, .start) = state at greatest found absent ⊢
  obtain ⟨top, hits⟩ := state
  simp only at greatest found absent
  have aligned : others = [] → finders.alignmentTokens ∣ top := by
    intro none
    obtain ⟨group, member⟩ := List.exists_mem_of_length_pos
      (show 0 < fulls.length by rw [none, List.append_nil] at several; omega)
    exact lawful.aligned group (List.mem_append_left _ member) top (greatest.1.2 group member)
  have allAbsent : ∀ groupId ∉ allGroupIds (fulls ++ others), hits.blocks groupId = none := by
    intro groupId outside
    rw [allGroupIds, List.flatMap_append, List.mem_append, not_or] at outside
    exact absent groupId outside.1
  have upper : top ∈ upperBounds (common finders (fulls ++ others) bound) := fun _ member =>
    greatest.2 (common_mono (List.subset_append_left _ _) member)
  obtain ⟨next, settles⟩ := others_resumed lawful full sparse distinct greatest.1 le_rfl found
    allAbsent upper aligned
  by_cases stays : bound ≤ (pass finders others (top, hits)).1
  · rw [if_pos stays]
    have whole : top = bound := by
      obtain ⟨_, _, nextWithin⟩ := next.covered
      have below := greatest.1.1
      have := @others_pass _ _ _ _ _ _ others hits top lawful (List.subset_append_right _ _)
        sparse (by
          rw [allGroupIds, List.flatMap_append] at distinct
          exact (List.nodup_append.mp distinct).2.1)
      omega
    subst whole
    exact settles stays
  · rw [if_neg stays]
    by_cases simple : (fulls ++ others).length = 2 ∧ startsFull (fulls ++ others) = true
    · have isSimple : (decide ((fulls ++ others).length = 2) &&
          startsFull (fulls ++ others)) = true := by
        simpa using simple
      rw [if_pos isSimple]
      cases others with
      | nil => exact settles le_rfl
      | cons group rest =>
          obtain ⟨two, starts⟩ := simple
          have some : fulls ≠ [] := by
            intro none
            rw [none, startsFull, List.nil_append, List.head?_cons] at starts
            simp [sparse group List.mem_cons_self] at starts
          have single : rest = [] := by
            have := List.length_pos_of_ne_nil some
            rw [List.length_append, List.length_cons] at two
            exact List.eq_nil_of_length_eq_zero (by omega)
          subst single
          have inGroups : group ∈ fulls ++ [group] :=
            List.mem_append_right _ (List.mem_singleton_self _)
          obtain ⟨length, held, _⟩ := @visit_lookup _ _ _ _ _ _ group hits top lawful
            inGroups (by simp [sparse group List.mem_cons_self])
          apply settled_of_held lawful full next
          intro other member
          obtain rfl := List.mem_singleton.mp member
          have visited : pass finders [other] (top, hits) = visit finders (top, hits) other := rfl
          rw [visited, length]
          exact ⟨lawful.valid other inGroups top, held⟩
    · have notSimple : ¬(decide ((fulls ++ others).length = 2) &&
          startsFull (fulls ++ others)) = true := by
        simpa using simple
      rw [if_neg notSimple]
      rw [Bool.not_eq_true] at notSimple
      rw [notSimple]
      exact search_resumed lawful full sparse distinct _ next

end Loop

end KvOffload.CacheHitSearch
