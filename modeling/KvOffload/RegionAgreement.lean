import KvOffload.RegionOpening

/-!
# Agreement on the shared region

In every order of the system calls the workers with an open file have the same one, and opening
ends. Workers are on both tiers only where huge pages were given once and refused, or not
readable, another time.
-/

namespace KvOffload.RegionAgreement

open KvOffload KvOffload.Base KvOffload.SharedProcesses KvOffload.RegionOpening

set_option autoImplicit false

section Steps

variable {config : RegionConfig} {host next : Host} {phase later : Phase}

theorem knows_without {tier : Tier}
    (onward : tier = .hugetlb → .refused ∈ host.answers ∨ .unreadable ∈ host.answers) :
    Knows config host (.without tier) := by
  cases tier with
  | hugetlb => exact fun _ => onward rfl
  | shm => trivial

theorem owned_without (tier : Tier) : (Phase.without tier).owned = none := by
  cases tier <;> rfl

theorem owned_entry (knows : Knows config host phase) {tier : Tier} {file : Nat}
    (owned : phase.owned = some (tier, file)) : host.files.entry tier = some file := by
  cases phase with
  | created _ _ =>
      cases owned
      exact knows.2.1
  | validated _ _ =>
      cases owned
      exact knows.2.1
  | discarding _ _ =>
      cases owned
      exact knows.2.1
  | opened elsewhere another creator =>
      cases creator with
      | true =>
          cases owned
          exact knows.2.1
      | false => cases owned
  | opening _ => cases owned
  | joining _ => cases owned
  | waiting _ _ => cases owned
  | doubting => cases owned
  | failed => cases owned

/-- What a step does to the files: nothing, or it makes an entry, fills the file of its worker,
or takes that out again. -/
inductive Effect (config : RegionConfig) (host : Host) (phase : Phase) (call : Call) :
    Phase → Host → Prop where
  | observed {later : Phase} {answers : List Answer} (more : host.answers ⊆ answers)
      (known : Knows config ⟨host.files, answers⟩ later)
      (owned : later.owned = phase.owned ∨ later.owned = none ∧ call = .unlinkFailed) :
      Effect config host phase call later ⟨host.files, answers⟩
  | created {tier : Tier} (free : phase.owned = none) (onTier : OnTier config host tier)
      (absent : host.files.entry tier = none) :
      Effect config host phase call (.created tier host.files.created)
        (host.withFiles (host.files.create tier))
  | truncated {tier : Tier} {file bytes : Nat} {answers : List Answer}
      (owned : phase.owned = some (tier, file)) (onTier : OnTier config host tier)
      (full : config.totalSizeBytes ≤ bytes) (more : host.answers ⊆ answers)
      (backed : tier = .hugetlb → .backed ∈ answers) :
      Effect config host phase call (.opened tier file true) ⟨host.files.truncate file bytes, answers⟩
  | unlinked {tier : Tier} {file : Nat} (owned : phase.owned = some (tier, file))
      (stub : host.files.size file < config.totalSizeBytes)
      (refused : tier = .hugetlb → .refused ∈ host.answers) :
      Effect config host phase call (.without tier) (host.withFiles (host.files.unlink tier))

/-- Nothing but a refusal takes a file with huge pages away that was seen. -/
theorem seen_absent (seen : Seen host .hugetlb) (absent : host.files.entry .hugetlb = none) :
    .refused ∈ host.answers :=
  (seen rfl).resolve_left fun there => there absent

theorem observed_same {call : Call} (known : Knows config host later)
    (owned : later.owned = phase.owned ∨ later.owned = none ∧ call = .unlinkFailed) :
    Effect config host phase call later host :=
  .observed (fun _ present => present) known owned

theorem answers_answer (host : Host) (answer : Answer) :
    host.answers ⊆ (host.answer answer).answers :=
  List.subset_append_left _ _

theorem mem_answer (host : Host) (answer : Answer) : answer ∈ (host.answer answer).answers :=
  List.mem_append_right _ (List.mem_singleton_self _)

theorem opening_effect {tier : Tier} {call : Call} (knows : Knows config host (.opening tier))
    (acted : act config host (.opening tier) call = .ok (later, next)) :
    Effect config host (.opening tier) call later next := by
  cases call with
  | openExclusive =>
      unfold act at acted
      cases there : host.files.entry tier with
      | none =>
          simp only [there] at acted
          cases acted
          exact .created rfl knows there
      | some file =>
          simp only [there] at acted
          cases acted
          refine observed_same ⟨knows, fun isHuge => .inl ?_⟩ (.inl rfl)
          rw [← isHuge, there]
          exact Option.some_ne_none _
  | openFailed =>
      cases acted
      exact observed_same trivial (.inl rfl)
  | _ => cases acted

theorem joining_effect {tier : Tier} {call : Call} (stored : Stored config host)
    (knows : Knows config host (.joining tier))
    (acted : act config host (.joining tier) call = .ok (later, next)) :
    Effect config host (.joining tier) call later next := by
  obtain ⟨onTier, seen⟩ := knows
  cases call with
  | reopen =>
      unfold act at acted
      cases there : host.files.entry tier with
      | none =>
          simp only [there] at acted
          cases acted
          refine observed_same (knows_without ?_) (.inl (owned_without tier))
          rintro rfl
          exact .inl (seen_absent seen there)
      | some file =>
          simp only [there] at acted
          cases acted
          refine observed_same ⟨onTier, seen, stored.fresh _ _ there, fun other elsewhere => ?_,
            fun _ => there⟩ (.inl rfl)
          exact stored.apart other tier file elsewhere there
  | reopenFailed =>
      cases tier with
      | hugetlb =>
          unfold act at acted
          cases acted
          split
          · exact .observed (answers_answer host .unreadable)
              (knows_without fun _ => .inr (mem_answer host .unreadable)) (.inl rfl)
          · rename_i missing
            refine observed_same (knows_without fun _ => .inl (seen_absent seen ?_)) (.inl rfl)
            exact Option.not_isSome_iff_eq_none.mp missing
      | shm =>
          cases acted
          exact observed_same trivial (.inl rfl)
  | _ => cases tier <;> cases acted

theorem waiting_effect {tier : Tier} {file : Nat} {call : Call}
    (knows : Knows config host (.waiting tier file))
    (acted : act config host (.waiting tier file) call = .ok (later, next)) :
    Effect config host (.waiting tier file) call later next := by
  obtain ⟨onTier, seen, _, _, entry⟩ := knows
  cases call with
  | fileSize =>
      unfold act at acted
      dsimp only at acted
      split at acted
      · rename_i full
        cases acted
        exact observed_same ⟨onTier, entry full, full⟩ (.inl rfl)
      · cases acted
  | gaveUp =>
      cases tier with
      | hugetlb =>
          cases acted
          exact observed_same ⟨onTier, seen⟩ (.inl rfl)
      | shm =>
          cases acted
          exact observed_same trivial (.inl rfl)
  | _ => cases tier <;> cases acted

theorem doubting_effect {call : Call} (knows : Knows config host .doubting)
    (acted : act config host .doubting call = .ok (later, next)) :
    Effect config host .doubting call later next := by
  cases call with
  | pathExists =>
      unfold act at acted
      cases there : host.files.entry .hugetlb with
      | none =>
          simp only [there] at acted
          cases acted
          exact observed_same (knows_without fun _ => .inl (seen_absent knows.2 there)) (.inl rfl)
      | some file =>
          simp only [there] at acted
          cases acted
          exact observed_same trivial (.inl rfl)
  | _ => cases acted

theorem created_effect {tier : Tier} {file : Nat} {call : Call}
    (knows : Knows config host (.created tier file))
    (acted : act config host (.created tier file) call = .ok (later, next)) :
    Effect config host (.created tier file) call later next := by
  obtain ⟨onTier, entry, small⟩ := knows
  cases tier with
  | hugetlb =>
      cases call with
      | validate readings =>
          unfold act at acted
          cases valid : validateHugetlbBacking config readings with
          | ok hugePageSize =>
              simp only [valid] at acted
              cases acted
              exact observed_same ⟨onTier, entry, small, (validated_size valid).2⟩ (.inl rfl)
          | error problem =>
              simp only [valid] at acted
              cases acted
              exact .observed (answers_answer host .refused)
                ⟨onTier, entry, small, fun _ => mem_answer host .refused⟩ (.inl rfl)
      | _ => cases acted
  | shm =>
      cases call with
      | ftruncate =>
          cases acted
          exact .truncated rfl onTier le_rfl (fun _ present => present) (by simp)
      | ftruncateFailed =>
          cases acted
          exact observed_same ⟨onTier, entry, small, by simp⟩ (.inl rfl)
      | _ => cases acted

theorem validated_effect {file hugePageSize : Nat} {call : Call}
    (knows : Knows config host (.validated file hugePageSize))
    (acted : act config host (.validated file hugePageSize) call = .ok (later, next)) :
    Effect config host (.validated file hugePageSize) call later next := by
  obtain ⟨onTier, entry, small, whole⟩ := knows
  cases call with
  | ftruncate =>
      cases acted
      exact .truncated rfl onTier whole.ge (answers_answer host .backed)
        fun _ => mem_answer host .backed
  | ftruncateFailed =>
      cases acted
      exact .observed (answers_answer host .refused)
        ⟨onTier, entry, small, fun _ => mem_answer host .refused⟩ (.inl rfl)
  | _ => cases acted

theorem discarding_effect {tier : Tier} {file : Nat} {call : Call}
    (knows : Knows config host (.discarding tier file))
    (acted : act config host (.discarding tier file) call = .ok (later, next)) :
    Effect config host (.discarding tier file) call later next := by
  obtain ⟨_, entry, small, refused⟩ := knows
  cases call with
  | unlink =>
      cases acted
      exact .unlinked rfl small refused
  | unlinkFailed =>
      cases acted
      exact observed_same (knows_without fun isHuge => .inl (refused isHuge))
        (.inr ⟨owned_without tier, rfl⟩)
  | _ => cases tier <;> cases acted

/-- Every system call has one of the effects. -/
theorem act_effect {call : Call} (stored : Stored config host) (knows : Knows config host phase)
    (acted : act config host phase call = .ok (later, next)) :
    Effect config host phase call later next := by
  cases phase with
  | opening tier => exact opening_effect knows acted
  | joining tier => exact joining_effect stored knows acted
  | waiting tier file => exact waiting_effect knows acted
  | doubting => exact doubting_effect knows acted
  | created tier file => exact created_effect knows acted
  | validated file hugePageSize => exact validated_effect knows acted
  | discarding tier file => exact discarding_effect knows acted
  | opened tier file creator => cases call <;> cases acted
  | failed => cases call <;> cases acted

variable {call : Call}

theorem effect_own (positive : 0 < config.totalSizeBytes) (stored : Stored config host)
    (knows : Knows config host phase) (effect : Effect config host phase call later next) :
    Stored config next ∧ Knows config next later := by
  cases effect with
  | observed more known owned => exact ⟨stored_answers stored more, known⟩
  | @created tier _ onTier absent =>
      have empty : (host.files.create tier).size host.files.created = 0 := Function.update_self ..
      refine ⟨stored_create absent positive stored, onTier, Function.update_self .., ?_⟩
      exact empty.trans_lt positive
  | @truncated tier file bytes answers owned onTier full more backed =>
      have found : (⟨host.files, answers⟩ : Host).files.entry tier = some file :=
        owned_entry knows owned
      refine ⟨stored_truncate found (stored_answers stored more) backed,
        on_tier_answers more onTier _, found, ?_⟩
      have size : (host.files.truncate file bytes).size file = bytes := Function.update_self ..
      exact full.trans_eq size.symm
  | @unlinked tier file owned stub refused =>
      exact ⟨stored_unlink stored tier, knows_without fun isHuge => .inl (refused isHuge)⟩

theorem effect_others (stored : Stored config host) (knows : Knows config host phase)
    (effect : Effect config host phase call later next) {other : Phase}
    (known : Knows config host other) (apart : Apart phase other) :
    Knows config next other ∧ Apart later other := by
  have foreign : ∀ {tier file}, phase.owned = some (tier, file) →
      other.owned ≠ some (tier, file) := by
    intro tier file owned same
    rcases apart with nothing | differs
    · cases nothing.symm.trans owned
    · exact differs (owned.trans same.symm)
  cases effect with
  | observed more _ owned =>
      refine ⟨knows_answers known more, ?_⟩
      rcases owned with same | ⟨nothing, _⟩
      · unfold Apart
        rw [same]
        exact apart
      · exact .inl nothing
  | @created tier _ _ absent =>
      refine ⟨knows_create absent stored known, .inr fun same => ?_⟩
      exact absurd (stored.fresh _ _ (owned_entry known same.symm)) (lt_irrefl _)
  | @truncated tier file bytes answers owned _ full more _ =>
      have found : (⟨host.files, answers⟩ : Host).files.entry tier = some file :=
        owned_entry knows owned
      refine ⟨knows_truncate found (stored_answers stored more) (knows_answers known more)
        (foreign owned) full, .inr fun same => ?_⟩
      exact foreign owned same.symm
  | @unlinked tier file owned stub refused =>
      exact ⟨knows_unlink (owned_entry knows owned) known (foreign owned) stub refused,
        .inl (owned_without tier)⟩

theorem opening_guarantee (positive : 0 < config.totalSizeBytes) :
    Guarantee (act config) (Stored config) (Knows config) Apart where
  symm phase other apart := by
    rcases apart with nothing | differs
    · by_cases free : other.owned = none
      · exact .inl free
      · exact .inr fun same => free (same.trans nothing)
    · exact .inr (Ne.symm differs)
  own _ _ _ _ _ stored knows acted := effect_own positive stored knows (act_effect stored knows acted)
  others _ _ _ _ _ stored knows acted _ known apart :=
    effect_others stored knows (act_effect stored knows acted) known apart

theorem start_together (config : RegionConfig) :
    Together (Stored config) (Knows config) Apart (Region.start config) where
  stored := by
    refine ⟨fun _ _ found => ?_, fun _ _ _ found _ => ?_, fun _ found _ => ?_⟩
    · cases found
    · cases found
    · cases found
  knows process := by
    show OnTier config {} (if config.hugetlbRequested then .hugetlb else .shm)
    cases requested : config.hugetlbRequested with
    | true => exact requested
    | false => exact fun wanted => by cases requested.symm.trans wanted
  apart _ _ _ := .inl rfl

end Steps

section Agreement

/-- What a worker with an open file shares with the others: the file stays in its directory with
its full size, all on the tier have it open, and one of them created it. Another tier is in use
only where huge pages were given once, and refused or not readable another time. -/
structure Shares (config : RegionConfig) (region : Region) (rank : Nat) (tier : Tier) (file : Nat)
    (creator : Bool) : Prop where
  linked : region.shared.files.entry tier = some file
  full : config.totalSizeBytes ≤ region.shared.files.size file
  requested : tier = .hugetlb → config.hugetlbRequested = true
  agreed : ∀ other another maker, region.phases other = .opened tier another maker →
    another = file ∧ (creator = true → maker = true → other = rank)
  split : ∀ other elsewhere another maker, region.phases other = .opened elsewhere another maker →
    elsewhere ≠ tier → .backed ∈ region.shared.answers ∧
      (.refused ∈ region.shared.answers ∨ .unreadable ∈ region.shared.answers)

variable {config : RegionConfig} {count : Nat} {region : Region}

/-- In every run the workers that have a file open share it. -/
theorem workers_share_file (positive : 0 < config.totalSizeBytes)
    (reaches : EventRuns.Reaches (Processes.apply (act config)) (Processes.Permitted count)
      (Region.start config) region) {rank : Nat} {tier : Tier} {file : Nat} {creator : Bool}
    (opened : region.phases rank = .opened tier file creator) :
    Shares config region rank tier file creator := by
  have together := together_reaches (opening_guarantee positive) (start_together config) reaches
  have known : ∀ {worker place held made}, region.phases worker = .opened place held made →
      OnTier config region.shared place ∧ region.shared.files.entry place = some held ∧
        config.totalSizeBytes ≤ region.shared.files.size held := by
    intro worker place held made there
    have knows := together.knows worker
    rw [there] at knows
    exact knows
  obtain ⟨onTier, entry, full⟩ := known opened
  refine ⟨entry, full, ?_, fun other another maker there => ?_,
    fun other elsewhere another maker there differs => ?_⟩
  · rintro rfl
    exact onTier
  · obtain ⟨_, held, _⟩ := known there
    have same : another = file := Option.some.inj (held.symm.trans entry)
    refine ⟨same, ?_⟩
    rintro rfl rfl
    by_contra apart
    have owners := together.apart other rank apart
    rw [there, opened, same] at owners
    rcases owners with nothing | differs
    · cases nothing
    · exact differs rfl
  · obtain ⟨otherTier, held, large⟩ := known there
    cases tier with
    | hugetlb =>
        cases elsewhere with
        | hugetlb => exact absurd rfl differs
        | shm => exact ⟨together.stored.backed file entry full, otherTier onTier⟩
    | shm =>
        cases elsewhere with
        | hugetlb => exact ⟨together.stored.backed another held large, onTier otherTier⟩
        | shm => exact absurd rfl differs

end Agreement

def fourWorkers : RegionConfig where
  pageSize := 4096
  rowStride := 2097152
  numBlocks := 3
  hugetlbRequested := true
  aligned := by decide

/-- A first creator finds too few free huge pages and goes to shared memory, where a second worker
joins it. A third one comes when there are enough pages, and a fourth joins that one. -/
def splitCalls : List (Nat × Call) :=
  [(0, .openExclusive), (1, .openExclusive), (0, .validate ⟨true, some 2097152, some (2097152, 2)⟩),
    (0, .unlink), (1, .reopen), (0, .openExclusive), (1, .openExclusive), (0, .ftruncate),
    (2, .openExclusive), (3, .openExclusive), (3, .reopen),
    (2, .validate ⟨true, some 2097152, some (2097152, 3)⟩), (2, .ftruncate), (3, .fileSize),
    (1, .reopen), (1, .fileSize)]

theorem split_tiers_shared :
    ∃ region : Region,
      region.phases 1 = .opened .shm 1 false ∧ region.phases 3 = .opened .hugetlb 2 false ∧
      Shares fourWorkers region 1 .shm 1 false := by
  have ran : (EventRuns.replay (Processes.apply (act fourWorkers)) (Processes.Permitted 4)
      (Region.start fourWorkers) splitCalls).map (fun region => (region.phases 1, region.phases 3)) =
      some (.opened .shm 1 false, .opened .hugetlb 2 false) := by decide +kernel
  obtain ⟨region, reaches, seen⟩ := EventRuns.exists_of_replay ran
  simp only [Prod.mk.injEq] at seen
  exact ⟨region, seen.1, seen.2, workers_share_file (by decide) reaches seen.1⟩

section Endings

variable {config : RegionConfig} {host next : Host} {phase later : Phase}

theorem left_without (tier : Tier) : (Phase.without tier).left = tier.reserve := by
  cases tier <;> rfl

/-- Every call brings its worker nearer to the end. -/
theorem left_act {call : Call} (acted : act config host phase call = .ok (later, next)) :
    later.left < phase.left := by
  unfold act at acted
  split at acted
  · split at acted
    · cases acted
      exact Nat.lt_succ_self _
    · cases acted
      exact Nat.lt_succ_self _
  · cases acted
    exact Nat.succ_pos _
  · rename_i tier
    have without := left_without tier
    split at acted
    · cases acted
      simp only [Phase.left] at without ⊢
      omega
    · cases acted
      exact Nat.lt_succ_self _
  · cases acted
    decide
  · cases acted
    decide
  · split at acted
    · cases acted
      exact Nat.succ_pos _
    · cases acted
  · cases acted
    exact Nat.lt_succ_self _
  · cases acted
    exact Nat.succ_pos _
  · split at acted
    · cases acted
      decide
    · cases acted
      exact Nat.succ_pos _
  · split at acted
    · cases acted
      exact Nat.lt_succ_self _
    · cases acted
      exact Nat.lt_add_of_pos_right Nat.two_pos
  · cases acted
    exact Nat.succ_pos _
  · cases acted
    exact Nat.lt_succ_self _
  · cases acted
    exact Nat.succ_pos _
  · cases acted
    exact Nat.lt_add_of_pos_right Nat.two_pos
  · rename_i tier _
    cases acted
    exact (left_without tier).trans_lt (Nat.lt_succ_self _)
  · rename_i tier _
    cases acted
    exact (left_without tier).trans_lt (Nat.lt_succ_self _)
  · cases acted

/-- The worker can make a call that does not fail. -/
def GoesOn (config : RegionConfig) (region : Region) (rank : Nat) : Prop :=
  ∃ call, call.fails = false ∧ ∃ after, region.apply (act config) (rank, call) = .ok after

variable {region : Region} {rank : Nat}

theorem goes_on_of_act {call : Call} {result : Phase × Host} (works : call.fails = false)
    (acted : act config region.shared (region.phases rank) call = .ok result) :
    GoesOn config region rank := by
  refine ⟨call, works, ⟨Function.update region.phases rank result.1, result.2⟩, ?_⟩
  unfold Processes.apply
  rw [acted]
  rfl

/-- Only the wait for a file can keep a worker. -/
theorem goes_on_of_sized (active : (region.phases rank).done = false)
    (sized : ∀ tier file, region.phases rank = .waiting tier file →
      config.totalSizeBytes ≤ region.shared.files.size file) : GoesOn config region rank := by
  have acts : ∃ call result, call.fails = false ∧
      act config region.shared (region.phases rank) call = .ok result := by
    cases stands : region.phases rank with
    | opening tier =>
        cases there : region.shared.files.entry tier with
        | none => exact ⟨.openExclusive, _, rfl, by simp only [act, there]; rfl⟩
        | some file => exact ⟨.openExclusive, _, rfl, by simp only [act, there]; rfl⟩
    | joining tier =>
        cases there : region.shared.files.entry tier with
        | none => exact ⟨.reopen, _, rfl, by simp only [act, there]; rfl⟩
        | some file => exact ⟨.reopen, _, rfl, by simp only [act, there]; rfl⟩
    | waiting tier file => exact ⟨.fileSize, _, rfl, if_pos (sized tier file stands)⟩
    | doubting =>
        cases there : region.shared.files.entry .hugetlb with
        | none => exact ⟨.pathExists, _, rfl, by simp only [act, there]; rfl⟩
        | some file => exact ⟨.pathExists, _, rfl, by simp only [act, there]; rfl⟩
    | created tier file =>
        cases tier with
        | hugetlb => exact ⟨.validate ⟨false, none, none⟩, _, rfl, rfl⟩
        | shm => exact ⟨.ftruncate, _, rfl, rfl⟩
    | validated file hugePageSize => exact ⟨.ftruncate, _, rfl, rfl⟩
    | discarding tier file => exact ⟨.unlink, _, rfl, rfl⟩
    | opened tier file creator =>
        rw [stands] at active
        cases active
    | failed =>
        rw [stands] at active
        cases active
  obtain ⟨call, result, works, acted⟩ := acts
  exact goes_on_of_act works acted

/-- A file that is too short has a worker that answers for it. -/
def Tended (config : RegionConfig) (region : Region) : Prop :=
  ∀ tier file, region.shared.files.entry tier = some file →
    region.shared.files.size file < config.totalSizeBytes →
      ∃ owner, (region.phases owner).owned = some (tier, file)

/-- Runs in which stubs can be removed. -/
def UnlinksWork (count : Nat) (region : Region) (event : Nat × Call) : Prop :=
  region.Permitted count event ∧ event.2 ≠ .unlinkFailed

instance (region : Region) (event : Nat × Call) (count : Nat) :
    Decidable (UnlinksWork count region event) :=
  inferInstanceAs (Decidable (_ ∧ _))

theorem tended_step (together : Together (Stored config) (Knows config) Apart region)
    (tended : Tended config region) {event : Nat × Call} (works : event.2 ≠ .unlinkFailed)
    {after : Region} (applied : region.apply (act config) event = .ok after) :
    Tended config after := by
  obtain ⟨mover, call⟩ := event
  obtain ⟨moved, shared, acted, rfl⟩ := apply_eq_ok applied
  have effect := act_effect together.stored (together.knows mover) acted
  have moving : ∀ {place held}, moved.owned = some (place, held) →
      ∃ owner, (Function.update region.phases mover moved owner).owned = some (place, held) :=
    fun owned => ⟨mover, (congrArg Phase.owned (Function.update_self ..)).trans owned⟩
  have resting : ∀ {place held owner}, owner ≠ mover →
      (region.phases owner).owned = some (place, held) →
      ∃ owner, (Function.update region.phases mover moved owner).owned = some (place, held) :=
    fun rests owned => ⟨_, (congrArg Phase.owned (Function.update_of_ne rests ..)).trans owned⟩
  intro tier file there small
  cases effect with
  | observed more known owned =>
      obtain ⟨owner, owns⟩ := tended tier file there small
      by_cases moves : owner = mover
      · rw [moves] at owns
        rcases owned with same | ⟨_, failed⟩
        · exact moving (same.trans owns)
        · exact absurd failed works
      · exact resting moves owns
  | @created place free _ absent =>
      have there : Function.update region.shared.files.entry place
        (some region.shared.files.created) tier = some file := there
      by_cases same : tier = place
      · rw [same, Function.update_self] at there
        rw [same, ← Option.some.inj there]
        exact moving rfl
      · rw [Function.update_of_ne same] at there
        have size := @size_create _ place _ (together.stored.fresh tier file there)
        obtain ⟨owner, owns⟩ := tended tier file there (size ▸ small)
        refine resting (fun moves => ?_) owns
        rw [moves, free] at owns
        cases owns
  | @truncated place held bytes answers owned _ full _ _ =>
      have small : Function.update region.shared.files.size held bytes file <
        config.totalSizeBytes := small
      by_cases same : file = held
      · rw [same, Function.update_self] at small
        exact absurd full (Nat.not_le.mpr small)
      · rw [Function.update_of_ne same] at small
        obtain ⟨owner, owns⟩ := tended tier file there small
        refine resting (fun moves => ?_) owns
        rw [moves, owned] at owns
        cases owns
        exact same rfl
  | @unlinked place held owned _ _ =>
      have there : Function.update region.shared.files.entry place none tier = some file := there
      by_cases same : tier = place
      · rw [same, Function.update_self] at there
        cases there
      · rw [Function.update_of_ne same] at there
        obtain ⟨owner, owns⟩ := tended tier file there small
        refine resting (fun moves => ?_) owns
        rw [moves, owned] at owns
        cases owns
        exact same rfl

theorem tended_reaches (positive : 0 < config.totalSizeBytes) {count : Nat}
    (reaches : EventRuns.Reaches (Processes.apply (act config)) (UnlinksWork count)
      (Region.start config) region) : Tended config region := by
  induction reaches with
  | refl =>
      intro tier file there
      cases there
  | tail before step ih =>
      obtain ⟨event, allowed, applied⟩ := step
      have together := together_reaches (opening_guarantee positive) (start_together config) before
      exact tended_step together ih allowed.2 applied

/-- A worker that answers for a stub has something to do. -/
theorem stub_goes_on (together : Together (Stored config) (Knows config) Apart region)
    {owner : Nat} {tier : Tier} {file : Nat}
    (owned : (region.phases owner).owned = some (tier, file))
    (small : region.shared.files.size file < config.totalSizeBytes) :
    GoesOn config region owner := by
  have knows := together.knows owner
  refine goes_on_of_sized ?_ fun place held waits => ?_
  · cases stands : region.phases owner with
    | opened place held creator =>
        rw [stands] at owned knows
        cases creator with
        | true =>
            cases owned
            exact absurd knows.2.2 (Nat.not_le.mpr small)
        | false => cases owned
    | failed =>
        rw [stands] at owned
        cases owned
    | _ => rfl
  · rw [waits] at owned
    cases owned

/-- A worker that is not done goes on, or it waits for a file. The file is then out of the
directory, or the worker that answers for it goes on. -/
def NotStuck (config : RegionConfig) (region : Region) (rank : Nat) : Prop :=
  GoesOn config region rank ∨ ∃ tier file, region.phases rank = .waiting tier file ∧
    (region.shared.files.entry tier = some file →
      ∃ owner, (region.phases owner).owned = some (tier, file) ∧ GoesOn config region owner)

/-- Opening ends for each worker after a bounded number of calls, where its polls of the size of a
file count as one, and until then no worker is stuck. -/
theorem opening_ends (positive : 0 < config.totalSizeBytes) {count : Nat}
    {events : List (Nat × Call)}
    (replayed : EventRuns.replay (Processes.apply (act config)) (UnlinksWork count)
      (Region.start config) events = some region) :
    (∀ rank, (events.map Prod.fst).count rank ≤ 8) ∧
      ∀ rank, (region.phases rank).done = false → NotStuck config region rank := by
  have start : ∀ rank, ((Region.start config).phases rank).left ≤ 8 := by
    intro rank
    show (if config.hugetlbRequested then Tier.hugetlb else Tier.shm).reserve + 4 ≤ 8
    split <;> decide
  have bound : ∀ rank, (events.map Prod.fst).count rank ≤ 8 := by
    intro rank
    have counted := count_add_left (fun _ _ _ _ _ acted => left_act acted) rank events replayed
    exact (Nat.le_add_right _ _).trans (counted.trans (start rank))
  have reaches := EventRuns.replay_reaches events replayed
  have together := together_reaches (opening_guarantee positive) (start_together config) reaches
  have tended := tended_reaches positive reaches
  refine ⟨bound, fun rank active => ?_⟩
  by_cases waits : ∃ tier file, region.phases rank = .waiting tier file ∧
      region.shared.files.size file < config.totalSizeBytes
  · obtain ⟨tier, file, stands, small⟩ := waits
    refine .inr ⟨tier, file, stands, fun there => ?_⟩
    obtain ⟨owner, owned⟩ := tended tier file there small
    exact ⟨owner, owned, stub_goes_on together owned small⟩
  · refine .inl (goes_on_of_sized active fun tier file stands => ?_)
    exact Nat.le_of_not_lt fun small => waits ⟨tier, file, stands, small⟩

end Endings

/-- The second worker waits for the stub of the first one. -/
def waitingCalls : List (Nat × Call) :=
  [(0, .openExclusive), (1, .openExclusive), (1, .reopen)]

theorem waiting_not_stuck :
    ∃ region : Region, region.phases 1 = .waiting .hugetlb 0 ∧
      (∀ rank, (waitingCalls.map Prod.fst).count rank ≤ 8) ∧ NotStuck fourWorkers region 1 := by
  have ran : (EventRuns.replay (Processes.apply (act fourWorkers)) (UnlinksWork 2)
      (Region.start fourWorkers) waitingCalls).map (fun region => region.phases 1) =
      some (.waiting .hugetlb 0) := by decide +kernel
  obtain ⟨region, replayed, waits⟩ := Option.map_eq_some_iff.mp ran
  obtain ⟨short, free⟩ := opening_ends (by decide) replayed
  exact ⟨region, waits, short, free 1 (by rw [waits]; rfl)⟩

end KvOffload.RegionAgreement
