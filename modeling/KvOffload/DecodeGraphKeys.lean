import KvOffload.DecodeGraphs

/-!
# Keys of the decode graphs

When the two lists of sizes fit each other, every decode key names the requests it has room
for, and every uniform decode batch is dispatched without an error.
-/

namespace KvOffload.DecodeGraphKeys

open KvOffload KvOffload.Base KvOffload.DecodeGraphs
open KvOffload.DecodeGraphs.CudagraphDispatcher

set_option autoImplicit false

section Keys

theorem first_fit_of_mem {sizes : List Nat} (ascending : sizes.Pairwise (· ≤ ·)) {bs : Nat}
    (member : bs ∈ sizes) : firstFit sizes bs = bs := by
  induction sizes with
  | nil => cases member
  | cons size rest ih =>
      obtain ⟨above, ascending⟩ := List.pairwise_cons.mp ascending
      unfold firstFit
      rw [List.find?_cons]
      rcases List.mem_cons.mp member with rfl | later
      · simp
      · by_cases reached : bs ≤ size
        · have same : size = bs := le_antisymm (above bs later) reached
          simp [same]
        · have fits := ih ascending later
          unfold firstFit at fits
          simpa [reached] using fits

theorem mem_decode_key_reqs {config : VllmConfig} {uniformDecodeQueryLen reqs : Nat}
    (member : reqs ∈ config.decodeKeyReqs uniformDecodeQueryLen) :
    0 < reqs ∧ reqs ≤ config.maxNumSeqs := by
  have all : ∀ other ∈ config.allReqs, 0 < other ∧ other ≤ config.maxNumSeqs := by
    intro other listed
    unfold VllmConfig.allReqs at listed
    rw [List.mem_range'_1] at listed
    omega
  unfold VllmConfig.decodeKeyReqs at member
  split at member
  · exact all reqs member
  · split at member
    · have positive := config.seqs_pos
      rw [List.mem_singleton.mp member]
      omega
    · dsimp only at member
      split at member
      · exact all reqs member
      · rw [Finset.mem_sort, List.mem_toFinset, List.mem_filterMap] at member
        obtain ⟨part, _, kept⟩ := member
        split at kept
        · cases kept
          omega
        · cases kept

/-- The size that the table pads a batch to. -/
def paddedSize (config : VllmConfig) (uniformDecodeQueryLen bs : Nat) : Nat :=
  if bs = 0 then 0
  else if bs ≤ config.maxCaptureSize then firstFit config.captureSizes bs
  else firstFit (config.capturedDecodeTokens uniformDecodeQueryLen) bs

theorem pads_get {config : VllmConfig} {uniformDecodeQueryLen : Nat} {mode : CUDAGraphMode}
    {table : List Nat} (pads : config.Pads uniformDecodeQueryLen mode table) {bs : Nat}
    (upper : bs ≤ config.mapMax uniformDecodeQueryLen mode.separateRoutine) :
    getItem table bs = .ok (paddedSize config uniformDecodeQueryLen bs) := by
  have entry : table[bs]? = some (paddedSize config uniformDecodeQueryLen bs) := by
    unfold paddedSize
    split
    · rename_i zero
      rw [zero]
      exact pads.zero
    · rename_i positive
      split
      · rename_i captured
        exact pads.captured bs (Nat.pos_of_ne_zero positive) captured
      · rename_i beyond
        exact pads.decoded bs (Nat.lt_of_not_le beyond) upper
  unfold getItem
  rw [entry]

theorem le_padded_size (config : VllmConfig) (uniformDecodeQueryLen bs : Nat) :
    bs ≤ paddedSize config uniformDecodeQueryLen bs := by
  have fits : ∀ sizes : List Nat, bs ≤ firstFit sizes bs := by
    intro sizes
    unfold firstFit
    cases found : sizes.find? fun size => bs ≤ size with
    | none => exact le_rfl
    | some size =>
        have reached := List.find?_some found
        exact of_decide_eq_true reached
  unfold paddedSize
  split
  · omega
  · split
    · exact fits _
    · exact fits _

section Adding

variable (dispatcher : CudagraphDispatcher)

theorem create_uniform {numTokens numTokensPadded : Nat}
    (entry : getItem dispatcher.bsToPaddedGraphSize numTokens = .ok numTokensPadded)
    (full : dispatcher.cudagraphMode.hasFull = true) (hasLora : Bool) (numActiveLoras : Nat) :
    dispatcher.createPaddedBatchDescriptor numTokens true hasLora numActiveLoras =
      if dispatcher.uniformDecodeQueryLen ∣ numTokensPadded then
        .ok (dispatcher.decodeKey numTokensPadded hasLora numActiveLoras)
      else .error .assertionError := by
  unfold createPaddedBatchDescriptor
  rw [entry, ok_bind, if_pos ⟨rfl, full⟩]
  unfold pyAssert
  by_cases divides : dispatcher.uniformDecodeQueryLen ∣ numTokensPadded
  · rw [if_pos divides, if_pos (Nat.mod_eq_zero_of_dvd divides)]
    rfl
  · rw [if_neg divides, if_neg fun zero => divides (Nat.dvd_of_mod_eq_zero zero)]
    rfl

/-- Mixed keys are never uniform, and they are made for every size the table has. -/
theorem add_mixed_keys_spec (entries : List (Nat × Nat)) {dispatcher : CudagraphDispatcher}
    (some : dispatcher.cudagraphMode.mixedMode ≠ .none)
    (listed : ∀ entry ∈ entries, ∃ padded,
      getItem dispatcher.bsToPaddedGraphSize entry.1 = .ok padded)
    (mixed : ∀ key ∈ dispatcher.fullKeys, key.uniform = false) :
    ∃ piecewiseKeys fullKeys, addKeys addMixedKey dispatcher entries =
        .ok (dispatcher.withKeys piecewiseKeys fullKeys) ∧
      ∀ key ∈ fullKeys, key.uniform = false := by
  induction entries generalizing dispatcher with
  | nil => exact ⟨_, _, rfl, mixed⟩
  | cons entry rest ih =>
      obtain ⟨bs, numActiveLoras⟩ := entry
      obtain ⟨⟨padded, first⟩, later⟩ := List.forall_mem_cons.mp listed
      have created : ∃ key, dispatcher.createPaddedBatchDescriptor bs false
          (decide (0 < numActiveLoras)) numActiveLoras = .ok key ∧ key.uniform = false := by
        unfold createPaddedBatchDescriptor
        rw [first, ok_bind, if_neg (by simp)]
        exact ⟨_, rfl, rfl⟩
      obtain ⟨key, created, plain⟩ := created
      have added : ∃ piecewiseKeys fullKeys, addMixedKey dispatcher bs numActiveLoras =
            .ok (dispatcher.withKeys piecewiseKeys fullKeys) ∧
          ∀ key ∈ fullKeys, key.uniform = false := by
        unfold addMixedKey
        rw [created, ok_bind]
        dsimp only
        unfold addCudagraphKey
        cases mode : dispatcher.cudagraphMode.mixedMode with
        | none => exact absurd mode some
        | piecewise => exact ⟨_, _, rfl, mixed⟩
        | full =>
            refine ⟨_, _, rfl, ?_⟩
            intro other member
            rcases Finset.mem_insert.mp member with rfl | before
            · exact plain
            · exact mixed other before
      obtain ⟨piecewiseKeys, fullKeys, call, plain⟩ := added
      obtain ⟨lastPiecewise, lastFull, rest, lastPlain⟩ :=
        @ih (dispatcher.withKeys piecewiseKeys fullKeys) some later plain
      refine ⟨lastPiecewise, lastFull, ?_, lastPlain⟩
      unfold addKeys
      rw [call, ok_bind, rest]
      rfl

theorem add_decode_keys_ok (entries : List (Nat × Nat)) {dispatcher : CudagraphDispatcher}
    (created : ∀ entry ∈ entries, ∃ key, dispatcher.createPaddedBatchDescriptor entry.1 true
      (decide (0 < entry.2)) entry.2 = .ok key) :
    ∃ fullKeys, addKeys addDecodeKey dispatcher entries =
        .ok (dispatcher.withKeys dispatcher.piecewiseKeys fullKeys) ∧
      ∀ key, key ∈ fullKeys ↔ key ∈ dispatcher.fullKeys ∨ dispatcher.Asked entries key := by
  induction entries generalizing dispatcher with
  | nil => exact ⟨_, rfl, fun key => by simp [Asked]⟩
  | cons entry rest ih =>
      obtain ⟨bs, numActiveLoras⟩ := entry
      obtain ⟨⟨key, first⟩, later⟩ := List.forall_mem_cons.mp created
      have call : addDecodeKey dispatcher bs numActiveLoras = .ok
          (dispatcher.withKeys dispatcher.piecewiseKeys (insert key dispatcher.fullKeys)) := by
        unfold addDecodeKey
        rw [first]
        rfl
      obtain ⟨fullKeys, done, members⟩ := @ih
        (dispatcher.withKeys dispatcher.piecewiseKeys (insert key dispatcher.fullKeys)) later
      refine ⟨fullKeys, ?_, fun other => (members other).trans ?_⟩
      · unfold addKeys
        rw [call, ok_bind, done]
        rfl
      · change other ∈ insert key dispatcher.fullKeys ∨ dispatcher.Asked rest other ↔ _
        have one : dispatcher.Asked ((bs, numActiveLoras) :: rest) other ↔
            other = key ∨ dispatcher.Asked rest other := by
          unfold Asked
          rw [List.exists_mem_cons_iff, first, Except.ok.injEq]
          exact or_congr_left eq_comm
        rw [Finset.mem_insert, one]
        tauto

theorem add_decode_keys_created (entries : List (Nat × Nat)) {dispatcher done : CudagraphDispatcher}
    (added : addKeys addDecodeKey dispatcher entries = .ok done) :
    ∀ entry ∈ entries, ∃ key, dispatcher.createPaddedBatchDescriptor entry.1 true
      (decide (0 < entry.2)) entry.2 = .ok key := by
  induction entries generalizing dispatcher with
  | nil => exact nofun
  | cons entry rest ih =>
      obtain ⟨bs, numActiveLoras⟩ := entry
      obtain ⟨next, first, later⟩ := bind_eq_ok.mp added
      obtain ⟨key, created, inserted⟩ := bind_eq_ok.mp first
      cases inserted
      intro other member
      rcases List.mem_cons.mp member with rfl | after
      · exact ⟨key, created⟩
      · exact ih later other after

end Adding

end Keys

section Soundness

variable {config : VllmConfig} {mode : CUDAGraphMode} {uniformDecodeQueryLen : Nat}

theorem first_fit_zero {table : List Nat}
    (pads : config.Pads uniformDecodeQueryLen mode table) :
    (∃ size ∈ config.compileSizes, size ≤ config.maxCaptureSize ∧ table.getD size 0 ≠ size) ↔
      ¬config.CompileSizesKept := by
  have read : ∀ size, size ≤ config.maxCaptureSize → (table.getD size 0 = size ↔
      (0 < size → firstFit config.captureSizes size = size)) := by
    intro size upper
    rw [List.getD_eq_getElem?_getD]
    rcases Nat.eq_zero_or_pos size with rfl | positive
    · rw [pads.zero]
      simp
    · rw [pads.captured size positive upper]
      simp [positive]
  unfold VllmConfig.CompileSizesKept
  push Not
  constructor
  · rintro ⟨size, member, upper, changed⟩
    rw [ne_eq, read size upper, Classical.not_imp] at changed
    exact ⟨size, member, changed.1, upper, changed.2⟩
  · rintro ⟨size, member, positive, upper, changed⟩
    refine ⟨size, member, upper, fun kept => changed ((read size upper).mp kept positive)⟩

/-- The keys are made from a table that pads, and the decode keys come last. -/
theorem initialize_spec (decodes : mode.decodeMode = .full)
    (separate : mode.separateRoutine = true) :
    ∃ table piecewiseKeys mixedKeys, config.Pads uniformDecodeQueryLen mode table ∧
      (∀ key ∈ mixedKeys, key.uniform = false) ∧
      (¬config.CompileSizesKept →
        initializeCudagraphKeys config mode uniformDecodeQueryLen = .error .valueError) ∧
      (config.CompileSizesKept →
        initializeCudagraphKeys config mode uniformDecodeQueryLen =
          (addKeys addDecodeKey
            ((blank config mode uniformDecodeQueryLen table).withKeys piecewiseKeys mixedKeys)
            ((blank config mode uniformDecodeQueryLen table).decodeSizes.product
              config.getLoraCases)).map fun dispatcher =>
                { dispatcher with keysInitialized := true }) := by
  obtain ⟨table, pads, computed⟩ := config.compute_bs_spec uniformDecodeQueryLen mode
  have enabled := mode.some_of_decode decodes
  have mixed : ∃ piecewiseKeys mixedKeys,
      (blank config mode uniformDecodeQueryLen table).addMixedKeys config.getLoraCases =
        .ok ((blank config mode uniformDecodeQueryLen table).withKeys piecewiseKeys mixedKeys) ∧
      ∀ key ∈ mixedKeys, key.uniform = false := by
    unfold addMixedKeys
    split
    · exact ⟨∅, ∅, rfl, by simp⟩
    · rename_i some
      apply add_mixed_keys_spec
      · exact some
      · intro entry member
        have captured := config.le_max_of_mem (List.mem_product.mp member).1
        refine ⟨_, pads_get pads (captured.trans ?_)⟩
        unfold VllmConfig.mapMax
        split
        · exact le_max_left _ _
        · exact le_rfl
      · simp [blank]
  obtain ⟨piecewiseKeys, mixedKeys, added, plain⟩ := mixed
  refine ⟨table, piecewiseKeys, mixedKeys, pads, plain, ?_, ?_⟩
  · intro changed
    have present : config.compileSizes ≠ [] := by
      rintro empty
      exact changed (by simp [VllmConfig.CompileSizesKept, empty])
    unfold initializeCudagraphKeys
    rw [enabled, if_neg (by simp), computed,
      if_pos ⟨present, enabled, (first_fit_zero pads).mpr changed⟩]
    rfl
  · intro kept
    have passed : ¬(config.compileSizes ≠ [] ∧ mode.isNone = false ∧
        ∃ size ∈ config.compileSizes, size ≤ config.maxCaptureSize ∧
          table.getD size 0 ≠ size) :=
      fun raising => (first_fit_zero pads).mp raising.2.2 kept
    unfold initializeCudagraphKeys
    rw [enabled, if_neg (by simp), computed, if_neg passed, ok_bind, added, ok_bind]
    unfold addDecodeKeys
    have chosen : ((blank config mode uniformDecodeQueryLen table).withKeys piecewiseKeys
        mixedKeys).cudagraphMode.decodeMode = .full ∧ ((blank config mode uniformDecodeQueryLen
        table).withKeys piecewiseKeys mixedKeys).cudagraphMode.separateRoutine = true :=
      ⟨decodes, separate⟩
    rw [if_pos chosen]
    change (addKeys addDecodeKey _ ((blank config mode uniformDecodeQueryLen
      table).decodeSizes.product config.getLoraCases) >>= _) = _
    cases addKeys addDecodeKey ((blank config mode uniformDecodeQueryLen table).withKeys
        piecewiseKeys mixedKeys) ((blank config mode uniformDecodeQueryLen
          table).decodeSizes.product config.getLoraCases) with
    | error problem => rfl
    | ok dispatcher => rfl

/-- A batch of requests is padded to a multiple of its query length, and a captured request
count to no more than the largest decode batch. -/
structure DecodeSizesFit (config : VllmConfig) (uniformDecodeQueryLen : Nat) : Prop where
  compiled : config.CompileSizesKept
  divides : ∀ reqs, 0 < reqs → reqs ≤ config.maxNumSeqs →
    reqs * uniformDecodeQueryLen ≤ config.maxCaptureSize →
    uniformDecodeQueryLen ∣ firstFit config.captureSizes (reqs * uniformDecodeQueryLen)
  bounded : 1 < uniformDecodeQueryLen →
    ∀ reqs ∈ config.decodeKeyReqs uniformDecodeQueryLen,
      reqs * uniformDecodeQueryLen ≤ config.maxCaptureSize →
      firstFit config.captureSizes (reqs * uniformDecodeQueryLen) ≤
        config.maxNumSeqs * uniformDecodeQueryLen

/-- The uniform full keys are well formed, and a uniform decode batch is dispatched without an
error, to a registered key that has room for it where the key is a full one. A call has a
LoRA configuration if it uses LoRAs, and allows eager execution. -/
structure DecodeKeysSound (dispatcher : CudagraphDispatcher) : Prop where
  keys : ∀ key ∈ dispatcher.fullKeys, key.uniform = true → ∃ reqs, key.numReqs = some reqs ∧
    key.numTokens = reqs * dispatcher.uniformDecodeQueryLen
  dispatched : ∀ reqs, reqs ≤ dispatcher.config.maxNumSeqs →
    ∀ (hasLora : Bool) (numActiveLoras : Nat) (validModes invalidModes : Finset RuntimeMode),
      (hasLora = true → dispatcher.config.loraConfig.isSome = true) →
      .none ∈ allowedModes validModes invalidModes →
      ∃ chosen key, dispatcher.dispatch (reqs * dispatcher.uniformDecodeQueryLen) true hasLora
          numActiveLoras validModes invalidModes = .ok (chosen, key) ∧
        (chosen = .full → key ∈ dispatcher.fullKeys ∧
          ∃ padded, key.numReqs = some padded ∧ reqs ≤ padded)

theorem first_fit_divides {reqs : Nat}
    (tokens : List Nat) (multiples : ∀ size ∈ tokens, uniformDecodeQueryLen ∣ size) :
    uniformDecodeQueryLen ∣ firstFit tokens (reqs * uniformDecodeQueryLen) := by
  unfold firstFit
  cases found : tokens.find? fun size => reqs * uniformDecodeQueryLen ≤ size with
  | none => exact Nat.dvd_mul_left _ _
  | some size => exact multiples size (List.mem_of_find?_eq_some found)

theorem mem_decode_tokens {size : Nat} :
    size ∈ config.capturedDecodeTokens uniformDecodeQueryLen ↔
      ∃ reqs ∈ config.decodeKeyReqs uniformDecodeQueryLen,
        reqs * uniformDecodeQueryLen = size := by
  unfold VllmConfig.capturedDecodeTokens
  rw [Finset.mem_sort, List.mem_toFinset, List.mem_map]

/-- Where the sizes fit, every uniform batch the table covers is padded to a multiple. -/
theorem padded_divides (fit : DecodeSizesFit config uniformDecodeQueryLen) {reqs : Nat}
    (upper : reqs ≤ config.maxNumSeqs) :
    uniformDecodeQueryLen ∣
      paddedSize config uniformDecodeQueryLen (reqs * uniformDecodeQueryLen) := by
  unfold paddedSize
  split
  · exact Nat.dvd_zero _
  · rename_i positive
    have someReqs : 0 < reqs := by
      rcases Nat.eq_zero_or_pos reqs with rfl | positive_
      · simp at positive
      · exact positive_
    split
    · rename_i captured
      exact fit.divides reqs someReqs upper captured
    · apply first_fit_divides
      intro size member
      obtain ⟨other, _, rfl⟩ := mem_decode_tokens.mp member
      exact Nat.dvd_mul_left _ _

/-- A decode size that fits is padded to a multiple within the largest decode batch. -/
theorem decode_size_fits (fit : DecodeSizesFit config uniformDecodeQueryLen)
    (positive : 0 < uniformDecodeQueryLen) (separate : mode.separateRoutine = true)
    {table : List Nat} {bs : Nat}
    (member : bs ∈ (blank config mode uniformDecodeQueryLen table).decodeSizes) :
    bs ≤ config.mapMax uniformDecodeQueryLen mode.separateRoutine ∧
      uniformDecodeQueryLen ∣ paddedSize config uniformDecodeQueryLen bs ∧
      paddedSize config uniformDecodeQueryLen bs ≤ config.maxNumSeqs * uniformDecodeQueryLen := by
  have unfolded : bs ∈ (if 1 < uniformDecodeQueryLen then
      (config.decodeKeyReqs uniformDecodeQueryLen).map fun reqs => reqs * uniformDecodeQueryLen
    else config.captureSizes.filter fun size =>
      size ≤ uniformDecodeQueryLen * config.maxNumSeqs ∧ uniformDecodeQueryLen ≤ size) := member
  unfold VllmConfig.mapMax
  by_cases several : 1 < uniformDecodeQueryLen
  · rw [if_pos several] at unfolded
    obtain ⟨reqs, listed, rfl⟩ := List.mem_map.mp unfolded
    obtain ⟨someReqs, upper⟩ := mem_decode_key_reqs listed
    rw [if_pos ⟨several, separate⟩]
    refine ⟨?_, padded_divides fit upper, ?_⟩
    · rw [Nat.mul_comm]
      exact (Nat.mul_le_mul_left _ upper).trans (le_max_right _ _)
    · unfold paddedSize
      rw [if_neg (Nat.mul_pos someReqs positive).ne']
      split
      · rename_i captured
        exact fit.bounded several reqs listed captured
      · have sorted : (config.capturedDecodeTokens uniformDecodeQueryLen).Pairwise (· ≤ ·) :=
          Finset.pairwise_sort _ _
        rw [first_fit_of_mem sorted (mem_decode_tokens.mpr ⟨reqs, listed, rfl⟩)]
        exact Nat.mul_le_mul_right _ upper
  · rw [if_neg several, List.mem_filter, decide_eq_true_eq] at unfolded
    obtain ⟨captured, upper, lower⟩ := unfolded
    have one : uniformDecodeQueryLen = 1 := by omega
    have within := config.le_max_of_mem captured
    have same : paddedSize config uniformDecodeQueryLen bs = bs := by
      unfold paddedSize
      rw [if_neg (by omega), if_pos within, first_fit_of_mem config.ascending captured]
    rw [if_neg (fun both => several both.1), same, one]
    refine ⟨within, Nat.one_dvd _, ?_⟩
    rw [one] at upper
    omega

/-- The dispatcher that is left when the keys are made. -/
theorem initialize_ok (decodes : mode.decodeMode = .full) (separate : mode.separateRoutine = true)
    {dispatcher : CudagraphDispatcher}
    (made : initializeCudagraphKeys config mode uniformDecodeQueryLen = .ok dispatcher) :
    config.CompileSizesKept ∧ dispatcher.config = config ∧ dispatcher.cudagraphMode = mode ∧
      dispatcher.uniformDecodeQueryLen = uniformDecodeQueryLen ∧
      dispatcher.keysInitialized = true ∧
      config.Pads uniformDecodeQueryLen mode dispatcher.bsToPaddedGraphSize ∧
      (∀ entry ∈ dispatcher.decodeSizes.product config.getLoraCases, ∃ key,
        dispatcher.createPaddedBatchDescriptor entry.1 true (decide (0 < entry.2)) entry.2 =
          .ok key) ∧
      ∀ key, key.uniform = true → (key ∈ dispatcher.fullKeys ↔
        Asked dispatcher (dispatcher.decodeSizes.product config.getLoraCases) key) := by
  obtain ⟨table, piecewiseKeys, mixedKeys, pads, plain, changed, kept⟩ :=
    @initialize_spec config mode uniformDecodeQueryLen decodes separate
  by_cases compiled : config.CompileSizesKept
  · rw [kept compiled] at made
    obtain ⟨added, call, same⟩ := map_eq_ok.mp made
    have created := add_decode_keys_created _ call
    obtain ⟨fullKeys, again, members⟩ := add_decode_keys_ok _ created
    rw [call, Except.ok.injEq] at again
    subst again same
    refine ⟨compiled, rfl, rfl, rfl, rfl, pads, created, fun key uniform => ?_⟩
    refine (members key).trans ?_
    constructor
    · rintro (mixed | asked)
      · exact absurd (plain key mixed) (by simp [uniform])
      · exact asked
    · exact .inr
  · rw [changed compiled] at made
    cases made

theorem initialize_returns (decodes : mode.decodeMode = .full)
    (separate : mode.separateRoutine = true) (positive : 0 < uniformDecodeQueryLen)
    (fit : DecodeSizesFit config uniformDecodeQueryLen) :
    ∃ dispatcher, initializeCudagraphKeys config mode uniformDecodeQueryLen = .ok dispatcher := by
  obtain ⟨table, piecewiseKeys, mixedKeys, pads, _, _, kept⟩ :=
    @initialize_spec config mode uniformDecodeQueryLen decodes separate
  have created : ∀ entry ∈ (blank config mode uniformDecodeQueryLen table).decodeSizes.product
      config.getLoraCases, ∃ key, (withKeys (blank config mode uniformDecodeQueryLen table)
        piecewiseKeys mixedKeys).createPaddedBatchDescriptor entry.1 true
          (decide (0 < entry.2)) entry.2 = .ok key := by
    intro entry member
    obtain ⟨upper, divides, _⟩ :=
      decode_size_fits fit positive separate (List.mem_product.mp member).1
    have call := create_uniform (withKeys (blank config mode uniformDecodeQueryLen table)
      piecewiseKeys mixedKeys) (pads_get pads upper) (mode.full_of_decode decodes)
      (decide (0 < entry.2)) entry.2
    exact ⟨_, call.trans (if_pos divides)⟩
  obtain ⟨fullKeys, added, _⟩ := add_decode_keys_ok _ created
  rw [kept fit.compiled, added]
  exact ⟨_, rfl⟩

/-- The way of a uniform decode batch through the dispatcher. -/
theorem dispatch_uniform {dispatcher : CudagraphDispatcher} {numTokens : Nat}
    {hasLora : Bool} {numActiveLoras : Nat} {validModes invalidModes : Finset RuntimeMode}
    (initialized : dispatcher.keysInitialized = true)
    (enabled : dispatcher.cudagraphMode.isNone = false)
    (separate : dispatcher.cudagraphMode.separateRoutine = true)
    (full : dispatcher.cudagraphMode.hasFull = true)
    (loras : hasLora = true → dispatcher.config.loraConfig.isSome = true)
    (eager : RuntimeMode.none ∈ allowedModes validModes invalidModes) :
    (dispatcher.numTokensLimit true < numTokens ∨ allowedModes validModes invalidModes ⊆ {.none} →
      dispatcher.dispatch numTokens true hasLora numActiveLoras validModes invalidModes =
        .ok (.none, { numTokens := numTokens })) ∧
    (¬(dispatcher.numTokensLimit true < numTokens ∨
        allowedModes validModes invalidModes ⊆ {.none}) →
      ∀ padded, getItem dispatcher.bsToPaddedGraphSize numTokens = .ok padded →
      ∃ effective, dispatcher.dispatch numTokens true hasLora numActiveLoras validModes
        invalidModes =
          if dispatcher.uniformDecodeQueryLen ∣ padded then
            dispatcher.matchKey (allowedModes validModes invalidModes) numTokens
              (decodeKey dispatcher padded hasLora effective)
          else .error .assertionError) := by
  have nonempty : allowedModes validModes invalidModes ≠ ∅ :=
    Finset.nonempty_iff_ne_empty.mp ⟨_, eager⟩
  unfold dispatch
  dsimp only
  rw [py_assert_of nonempty, ok_bind, initialized, enabled]
  constructor
  · intro early
    rw [if_pos (.inr (.inr early))]
  · intro late padded entry
    rw [if_neg]
    · obtain ⟨effective, served⟩ :
          ∃ effective, dispatcher.effectiveLoras hasLora numActiveLoras = .ok effective := by
        unfold effectiveLoras
        split
        · rename_i active
          obtain ⟨lora, present⟩ := Option.isSome_iff_exists.mp (loras active.1)
          rw [present]
          split
          · exact ⟨_, rfl⟩
          · exact ⟨_, rfl⟩
        · exact ⟨_, rfl⟩
      refine ⟨effective, ?_⟩
      rw [served, ok_bind, separate, Bool.and_true,
        create_uniform dispatcher entry full hasLora effective]
      split
      · rfl
      · rfl
    · rintro (uninitialized | disabled | early)
      · cases uninitialized
      · cases disabled
      · exact late early

theorem match_key_full {dispatcher : CudagraphDispatcher} {allowed : Finset RuntimeMode}
    (eager : RuntimeMode.none ∈ allowed) (numTokens : Nat) (key : BatchDescriptor) :
    ∃ chosen found, dispatcher.matchKey allowed numTokens key = .ok (chosen, found) ∧
      (chosen = .full → found = key ∧ key ∈ dispatcher.fullKeys) := by
  unfold matchKey
  dsimp only
  split
  · rename_i registered
    exact ⟨_, _, rfl, fun _ => ⟨rfl, registered.2⟩⟩
  · split
    · exact ⟨_, _, rfl, nofun⟩
    · rw [py_assert_of eager]
      exact ⟨_, _, rfl, nofun⟩

theorem limit_eq {dispatcher : CudagraphDispatcher}
    (enabled : dispatcher.cudagraphMode.isNone = false)
    (separate : dispatcher.cudagraphMode.separateRoutine = true) :
    dispatcher.numTokensLimit true = dispatcher.config.mapMax dispatcher.uniformDecodeQueryLen
      dispatcher.cudagraphMode.separateRoutine := by
  unfold numTokensLimit VllmConfig.mapMax
  rw [enabled, separate]
  by_cases several : 1 < dispatcher.uniformDecodeQueryLen <;> simp [several]

/-- The keys are made and sound exactly when the sizes fit. -/
theorem decode_keys_sound_iff (decodes : mode.decodeMode = .full)
    (separate : mode.separateRoutine = true) (positive : 0 < uniformDecodeQueryLen) :
    (∃ dispatcher, initializeCudagraphKeys config mode uniformDecodeQueryLen = .ok dispatcher ∧
      DecodeKeysSound dispatcher) ↔ DecodeSizesFit config uniformDecodeQueryLen := by
  constructor
  · rintro ⟨dispatcher, made, sound⟩
    obtain ⟨compiled, sameConfig, sameMode, sameLen, initialized, pads, created, members⟩ :=
      initialize_ok decodes separate made
    subst sameConfig sameMode sameLen
    have enabled := dispatcher.cudagraphMode.some_of_decode decodes
    have full := dispatcher.cudagraphMode.full_of_decode decodes
    have reach : dispatcher.config.maxCaptureSize ≤ dispatcher.config.mapMax
        dispatcher.uniformDecodeQueryLen dispatcher.cudagraphMode.separateRoutine := by
      unfold VllmConfig.mapMax
      split
      · exact le_max_left _ _
      · exact le_rfl
    have captured : ∀ bs, 0 < bs → bs ≤ dispatcher.config.maxCaptureSize →
        paddedSize dispatcher.config dispatcher.uniformDecodeQueryLen bs =
          firstFit dispatcher.config.captureSizes bs := by
      intro bs someTokens upper
      unfold paddedSize
      rw [if_neg someTokens.ne', if_pos upper]
    refine ⟨compiled, ?_, ?_⟩
    · intro reqs someReqs upper small
      obtain ⟨chosen, key, answered, _⟩ := sound.dispatched reqs upper false 0 ∅ ∅ nofun
        (by simp [allowedModes])
      obtain ⟨_, late⟩ := @dispatch_uniform dispatcher
        (reqs * dispatcher.uniformDecodeQueryLen) false 0 ∅ ∅ initialized enabled separate full
        nofun (by simp [allowedModes])
      have inside : ¬(dispatcher.numTokensLimit true < reqs * dispatcher.uniformDecodeQueryLen ∨
          allowedModes ∅ ∅ ⊆ {RuntimeMode.none}) := by
        rw [limit_eq enabled separate]
        rintro (beyond | none)
        · exact absurd (small.trans reach) (Nat.not_le.mpr beyond)
        · exact absurd (none (show RuntimeMode.full ∈ allowedModes ∅ ∅ by simp [allowedModes]))
            (by simp)
      obtain ⟨effective, same⟩ := late inside _ (pads_get pads (small.trans reach))
      rw [answered] at same
      by_contra stuck
      rw [captured _ (Nat.mul_pos someReqs positive) small, if_neg stuck] at same
      cases same
    · intro several reqs listed small
      obtain ⟨someReqs, upper⟩ := mem_decode_key_reqs listed
      obtain ⟨lora, case⟩ : ∃ lora, lora ∈ dispatcher.config.getLoraCases := by
        unfold VllmConfig.getLoraCases
        split
        · exact ⟨_, List.mem_singleton_self _⟩
        · split
          · exact ⟨_, List.mem_cons_self⟩
          · exact ⟨_, List.mem_singleton_self _⟩
      have entry : (reqs * dispatcher.uniformDecodeQueryLen, lora) ∈
          dispatcher.decodeSizes.product dispatcher.config.getLoraCases := by
        refine List.mem_product.mpr ⟨?_, case⟩
        unfold decodeSizes
        rw [if_pos several]
        exact List.mem_map.mpr ⟨reqs, listed, rfl⟩
      obtain ⟨key, call⟩ := created _ entry
      have made := create_uniform dispatcher (pads_get pads (small.trans reach)) full
        (decide (0 < lora)) lora
      rw [call, captured _ (Nat.mul_pos someReqs positive) small] at made
      split at made
      · cases made
        obtain ⟨count, counted, tokens⟩ := sound.keys _
          ((members _ rfl).mpr ⟨_, entry, call⟩) rfl
        cases counted
        change firstFit _ _ = _ at tokens
        rw [tokens]
        exact Nat.mul_le_mul_right _ (min_le_right _ _)
      · cases made
  · intro fit
    obtain ⟨dispatcher, made⟩ := initialize_returns decodes separate positive fit
    obtain ⟨_, sameConfig, sameMode, sameLen, initialized, pads, created, members⟩ :=
      initialize_ok decodes separate made
    subst sameConfig sameMode sameLen
    have enabled := dispatcher.cudagraphMode.some_of_decode decodes
    have full := dispatcher.cudagraphMode.full_of_decode decodes
    refine ⟨dispatcher, made, ?_, ?_⟩
    · intro key member uniform
      obtain ⟨entry, listed, call⟩ := (members key uniform).mp member
      obtain ⟨upper, divides, within⟩ := @decode_size_fits dispatcher.config
        dispatcher.cudagraphMode dispatcher.uniformDecodeQueryLen fit positive separate
        dispatcher.bsToPaddedGraphSize entry.1 (List.mem_product.mp listed).1
      rw [create_uniform dispatcher (pads_get pads upper) full, if_pos divides] at call
      cases call
      refine ⟨_, rfl, ?_⟩
      have quotient : paddedSize dispatcher.config dispatcher.uniformDecodeQueryLen entry.1 /
          dispatcher.uniformDecodeQueryLen ≤ dispatcher.config.maxNumSeqs := by
        rw [Nat.mul_comm] at within
        exact Nat.div_le_of_le_mul within
      rw [min_eq_left quotient, Nat.div_mul_cancel divides]
      rfl
    · intro reqs upper hasLora numActiveLoras validModes invalidModes loras eager
      obtain ⟨early, late⟩ := @dispatch_uniform dispatcher
        (reqs * dispatcher.uniformDecodeQueryLen) hasLora numActiveLoras validModes invalidModes
        initialized enabled separate full loras eager
      by_cases left : dispatcher.numTokensLimit true < reqs * dispatcher.uniformDecodeQueryLen ∨
          allowedModes validModes invalidModes ⊆ {RuntimeMode.none}
      · exact ⟨_, _, early left, nofun⟩
      · have inside : reqs * dispatcher.uniformDecodeQueryLen ≤ dispatcher.config.mapMax
            dispatcher.uniformDecodeQueryLen dispatcher.cudagraphMode.separateRoutine := by
          rw [← limit_eq enabled separate]
          exact Nat.le_of_not_lt fun beyond => left (.inl beyond)
        obtain ⟨effective, same⟩ := late left _ (pads_get pads inside)
        rw [if_pos (padded_divides fit upper)] at same
        obtain ⟨chosen, key, answered, registered⟩ := match_key_full eager
          (reqs * dispatcher.uniformDecodeQueryLen) (dispatcher.decodeKey (paddedSize
            dispatcher.config dispatcher.uniformDecodeQueryLen
            (reqs * dispatcher.uniformDecodeQueryLen)) hasLora effective)
        refine ⟨chosen, key, same.trans answered, fun isFull => ?_⟩
        obtain ⟨rfl, member⟩ := registered isFull
        refine ⟨member, _, rfl, le_min ?_ upper⟩
        exact (Nat.le_div_iff_mul_le positive).mpr (le_padded_size _ _ _)

end Soundness

/-- Full graphs for decoding, piecewise ones for the rest. -/
def fullAndPiecewise : CUDAGraphMode where
  isNone := false
  decodeMode := .full
  mixedMode := .piecewise
  separateRoutine := true
  hasFull := true
  full_of_decode := fun _ => rfl
  some_of_decode := fun _ => rfl

/-- Two sequences and the given capture sizes. -/
def pairConfig (captureSizes : List Nat) (maxCaptureSize : Nat)
    (ascending : captureSizes.Pairwise (· ≤ ·))
    (ends : captureSizes.getLast? = some maxCaptureSize) : VllmConfig where
  captureSizes := captureSizes
  maxCaptureSize := maxCaptureSize
  maxNumSeqs := 2
  ascending := ascending
  ends := ends
  seqs_pos := by decide

/-- One request of three tokens is padded to four, which no number of such requests fills. -/
theorem padded_decode_key_raises :
    initializeCudagraphKeys (pairConfig [1, 2, 4, 8] 8 (by decide) rfl) fullAndPiecewise 3 =
      .error .assertionError := by
  have ran : raised (initializeCudagraphKeys (pairConfig [1, 2, 4, 8] 8 (by decide) rfl)
      fullAndPiecewise 3) = some .assertionError := by decide +kernel
  exact raised_eq_some.mp ran

theorem multiples_are_sound :
    ∃ dispatcher, initializeCudagraphKeys (pairConfig [3, 6] 6 (by decide) rfl)
      fullAndPiecewise 3 = .ok dispatcher ∧ DecodeKeysSound dispatcher := by
  have reqs_of : ∀ reqs : Nat, 0 < reqs → reqs ≤ 2 → reqs = 1 ∨ reqs = 2 := by omega
  apply (decode_keys_sound_iff rfl rfl (by decide)).mpr
  refine ⟨nofun, fun reqs positive upper _ => ?_, fun _ reqs listed _ => ?_⟩
  · rcases reqs_of reqs positive upper with rfl | rfl
    · decide
    · decide
  · obtain ⟨positive, upper⟩ := mem_decode_key_reqs listed
    rcases reqs_of reqs positive upper with rfl | rfl
    · decide
    · decide

end KvOffload.DecodeGraphKeys
