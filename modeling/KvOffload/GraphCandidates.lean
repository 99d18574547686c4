import KvOffload.DecodeGraphs

/-!
# Candidates of the graph manager

Captured graphs are filed under their token count, and a batch is looked up under the next
count that has any graph at all. What the next count offers decides, whatever lies above it.
-/

namespace KvOffload.GraphCandidates

open KvOffload KvOffload.Base KvOffload.DecodeGraphs

set_option autoImplicit false

/-- `none` where a graph does not constrain the requests, a uniform query length or the
longest query. -/
structure BatchExecutionDescriptor where
  cgMode : RuntimeMode
  numTokens : Nat
  numReqs : Option Nat
  uniformTokenCount : Option Nat := none
  maxQueryLen : Option Nat := none
  numActiveLoras : Nat := 0
  deriving DecidableEq

/-- What a batch asks of a graph. -/
structure Batch where
  numReqs : Nat
  numTokens : Nat
  uniformTokenCount : Option Nat
  numActiveLoras : Nat
  maxQueryLen : Option Nat := none

def isCompatible (desc : BatchExecutionDescriptor) (batch : Batch) : Bool :=
  (desc.uniformTokenCount = none || desc.uniformTokenCount = batch.uniformTokenCount) &&
    (match desc.maxQueryLen, batch.maxQueryLen with
      | none, _ => true
      | some _, none => false
      | some longest, some query => decide (query ≤ longest)) &&
    (desc.numReqs.all fun numReqs => decide (batch.numReqs ≤ numReqs)) &&
    decide (batch.numTokens ≤ desc.numTokens) &&
    decide (desc.numActiveLoras = batch.numActiveLoras)

/-- `decodeQueryLens` has one entry unless speculation is dynamic. `decodeCgBatches` holds the
integers of `VLLM_MTP_DECODE_CG_BATCHES` where that is set and does not disable the sweep. -/
structure GraphConfig where
  captureSizes : List Nat
  maxCgCaptureSize : Nat
  maxNumReqs : Nat
  cudagraphMode : CUDAGraphMode
  decodeQueryLen : Nat
  decodeQueryLens : List Nat
  loraCaptureCases : List Nat
  varlenDecode : Bool := false
  decodeCgDisabled : Bool := false
  decodeCgBatches : Option (List Int) := none

namespace GraphConfig

variable (config : GraphConfig)

def maxDecodeTokens : Nat := config.maxNumReqs * config.decodeQueryLen

/-- Uniform decode batches have graphs of their own. -/
def decodesApart : Bool :=
  config.cudagraphMode.separateRoutine && decide (config.cudagraphMode.decodeMode ≠ .none)

def roundUp (value multiple : Nat) : Nat := cdiv value multiple * multiple

/-- A decode graph for any mix of query lengths. -/
def varlenDesc (numTokens numActiveLoras : Nat) : BatchExecutionDescriptor where
  cgMode := config.cudagraphMode.decodeMode
  numTokens := numTokens
  numReqs := some (min numTokens config.maxNumReqs)
  maxQueryLen := some config.decodeQueryLen
  numActiveLoras := numActiveLoras

def uniformDesc (reqs decodeQueryLen numActiveLoras : Nat) : BatchExecutionDescriptor where
  cgMode := config.cudagraphMode.decodeMode
  numTokens := reqs * decodeQueryLen
  numReqs := some reqs
  uniformTokenCount := some decodeQueryLen
  numActiveLoras := numActiveLoras

def mixedDesc (numTokens numActiveLoras : Nat) : BatchExecutionDescriptor where
  cgMode := config.cudagraphMode.mixedMode
  numTokens := numTokens
  numReqs :=
    if config.cudagraphMode.mixedMode = .full then some (min numTokens config.maxNumReqs) else none
  numActiveLoras := numActiveLoras

/-- A descriptor joins the lists of its mode and of its token and LoRA counts; the one list
of all descriptors, in the order they came, stands for both maps. -/
def addNew (descs : List BatchExecutionDescriptor) (desc : BatchExecutionDescriptor) :
    List BatchExecutionDescriptor :=
  if desc ∈ descs then descs else descs ++ [desc]

/-- The rounded uniform graphs of one capture size. -/
def addRounded (numTokens numActiveLoras : Nat) (descs : List BatchExecutionDescriptor)
    (decodeQueryLen : Nat) : List BatchExecutionDescriptor :=
  let rounded := roundUp numTokens decodeQueryLen
  let reqs := rounded / decodeQueryLen
  if config.maxDecodeTokens < rounded ∨ config.maxCgCaptureSize < rounded ∨
      config.maxNumReqs < reqs then descs
  else addNew descs { config.uniformDesc reqs decodeQueryLen numActiveLoras with
    numTokens := rounded }

def addSize (descs : List BatchExecutionDescriptor) (numTokens numActiveLoras : Nat) :
    List BatchExecutionDescriptor :=
  let decoding :=
    if config.decodesApart ∧ config.varlenDecode ∧ numTokens ≤ config.maxDecodeTokens then
      descs ++ [config.varlenDesc numTokens numActiveLoras]
    else if config.decodesApart ∧ ¬config.varlenDecode then
      config.decodeQueryLens.foldl (config.addRounded numTokens numActiveLoras) descs
    else descs
  if config.cudagraphMode.mixedMode ≠ .none then
    decoding ++ [config.mixedDesc numTokens numActiveLoras]
  else decoding

/-- The request counts of the sweep. -/
def reqsSweep : List Nat :=
  if config.decodeCgDisabled then [1]
  else
    match config.decodeCgBatches with
    | none => List.range' 1 config.maxNumReqs
    | some parts =>
        let reqs := parts.filterMap fun (part : Int) =>
          if 1 ≤ part ∧ part ≤ config.maxNumReqs then some part.toNat else none
        if reqs = [] then [1] else reqs.dedup.insertionSort (· ≤ ·)

def longestQuery : Nat := config.decodeQueryLens.foldl max 0

def sweep (descs : List BatchExecutionDescriptor) : List BatchExecutionDescriptor :=
  if config.decodesApart ∧ ¬config.varlenDecode ∧ 1 < config.longestQuery then
    (config.loraCaptureCases.product config.reqsSweep).foldl
      (fun descs entry => addNew descs (config.uniformDesc entry.2 config.longestQuery entry.1))
      descs
  else descs

def addSizes : List BatchExecutionDescriptor :=
  ((config.captureSizes.insertionSort (· ≤ ·)).product config.loraCaptureCases).foldl
    (fun descs entry => config.addSize descs entry.1 entry.2) []

/-- Every descriptor that is captured. -/
def captureDescs : List BatchExecutionDescriptor :=
  if config.cudagraphMode.isNone ∨ config.captureSizes = [] then []
  else config.sweep config.addSizes

def allTokenCounts : List Nat :=
  (config.captureDescs.map BatchExecutionDescriptor.numTokens).dedup.insertionSort (· ≤ ·)

/-- The loop over the token counts: a count serves what lies above the one before it. -/
def rangeOf (numTokens : Nat) : Nat → List Nat → Option Nat
  | _, [] => none
  | start, tokenCgSize :: rest =>
      if start ≤ numTokens ∧ numTokens ≤ tokenCgSize then some tokenCgSize
      else rangeOf numTokens (tokenCgSize + 1) rest

/-- `_candidates[(num_tokens, num_active_loras)]`. -/
def candidates (numTokens numActiveLoras : Nat) : Option (List BatchExecutionDescriptor) := do
  let tokenCgSize ← rangeOf numTokens 0 config.allTokenCounts
  let staged := config.captureDescs.filter fun desc =>
    desc.numTokens = tokenCgSize && desc.numActiveLoras = numActiveLoras
  if numActiveLoras ∈ config.loraCaptureCases ∧ staged ≠ [] then some staged else none

/-- The captured LoRA count that serves a batch; counts above the largest clamp to it. -/
def resolveEffectiveLoras (numActiveLoras : Nat) : Nat :=
  let captured := (config.loraCaptureCases.filter fun count => 0 < count).insertionSort (· ≤ ·)
  if numActiveLoras = 0 then numActiveLoras
  else
    match captured.getLast? with
    | none => numActiveLoras
    | some maxLoraCase => (captured.find? fun count => numActiveLoras ≤ count).getD maxLoraCase

def resolve (batch : Batch) : Batch :=
  { batch with numActiveLoras := config.resolveEffectiveLoras batch.numActiveLoras }

def eager (batch : Batch) : BatchExecutionDescriptor where
  cgMode := .none
  numTokens := batch.numTokens
  numReqs := some batch.numReqs
  numActiveLoras := batch.numActiveLoras

/-- The dispatch once all graphs are captured. -/
def dispatch (batch : Batch) : BatchExecutionDescriptor :=
  let batch := config.resolve batch
  if 0 < batch.numTokens then
    match config.candidates batch.numTokens batch.numActiveLoras with
    | none => eager batch
    | some descs => (descs.find? fun desc => isCompatible desc batch).getD (eager batch)
  else eager batch

end GraphConfig

section Captured

variable (config : GraphConfig)

/-- A captured descriptor replays graphs and is filed under a captured LoRA count. -/
def Filed (desc : BatchExecutionDescriptor) : Prop :=
  desc.cgMode ≠ .none ∧ desc.numActiveLoras ∈ config.loraCaptureCases

theorem add_new_filed {descs : List BatchExecutionDescriptor} {desc : BatchExecutionDescriptor}
    (filed : ∀ other ∈ descs, Filed config other) (own : Filed config desc) :
    ∀ other ∈ GraphConfig.addNew descs desc, Filed config other := by
  unfold GraphConfig.addNew
  split
  · exact filed
  · intro other member
    rcases List.mem_append.mp member with before | new
    · exact filed other before
    · exact List.mem_singleton.mp new ▸ own

theorem decode_filed {numActiveLoras : Nat} (apart : config.decodesApart = true)
    (case : numActiveLoras ∈ config.loraCaptureCases) (desc : BatchExecutionDescriptor)
    (mode : desc.cgMode = config.cudagraphMode.decodeMode)
    (loras : desc.numActiveLoras = numActiveLoras) : Filed config desc := by
  unfold GraphConfig.decodesApart at apart
  rw [Bool.and_eq_true, decide_eq_true_eq] at apart
  exact ⟨mode ▸ apart.2, loras ▸ case⟩

theorem add_size_filed {descs : List BatchExecutionDescriptor} {numActiveLoras : Nat}
    (filed : ∀ other ∈ descs, Filed config other)
    (case : numActiveLoras ∈ config.loraCaptureCases) (numTokens : Nat) :
    ∀ other ∈ config.addSize descs numTokens numActiveLoras, Filed config other := by
  have rounded : config.decodesApart = true → ∀ other ∈ config.decodeQueryLens.foldl
      (config.addRounded numTokens numActiveLoras) descs, Filed config other := by
    intro apart
    apply List.foldlRecOn (motive := fun descs => ∀ other ∈ descs, Filed config other) _ _ filed
    intro others before decodeQueryLen _
    unfold GraphConfig.addRounded
    dsimp only
    split
    · exact before
    · exact add_new_filed config before (decode_filed config apart case _ rfl rfl)
  have decoding : ∀ other ∈ (if config.decodesApart ∧ config.varlenDecode ∧
        numTokens ≤ config.maxDecodeTokens then
      descs ++ [config.varlenDesc numTokens numActiveLoras]
    else if config.decodesApart ∧ ¬config.varlenDecode then
      config.decodeQueryLens.foldl (config.addRounded numTokens numActiveLoras) descs
    else descs), Filed config other := by
    split
    · rename_i varlen
      intro other member
      rcases List.mem_append.mp member with before | new
      · exact filed other before
      · rw [List.mem_singleton.mp new]
        exact decode_filed config varlen.1 case _ rfl rfl
    · split
      · rename_i uniform
        exact rounded uniform.1
      · exact filed
  unfold GraphConfig.addSize
  dsimp only
  split
  · rename_i mixed
    intro other member
    rcases List.mem_append.mp member with before | new
    · exact decoding other before
    · rw [List.mem_singleton.mp new]
      exact ⟨mixed, case⟩
  · exact decoding

theorem captured_filed {desc : BatchExecutionDescriptor} (member : desc ∈ config.captureDescs) :
    Filed config desc := by
  have all : ∀ other ∈ config.captureDescs, Filed config other := by
    unfold GraphConfig.captureDescs
    split
    · simp
    · have sized : ∀ other ∈ config.addSizes, Filed config other := by
        apply List.foldlRecOn (motive := fun descs => ∀ other ∈ descs, Filed config other)
        · simp
        · intro others before entry listed
          exact add_size_filed config before (List.mem_product.mp listed).2 entry.1
      unfold GraphConfig.sweep
      split
      · rename_i uniform
        apply List.foldlRecOn (motive := fun descs => ∀ other ∈ descs, Filed config other) _ _
          sized
        intro others before entry listed
        exact add_new_filed config before
          (decode_filed config uniform.1 (List.mem_product.mp listed).1 _ rfl rfl)
      · exact sized
  exact all desc member

end Captured

section Dispatch

variable {config : GraphConfig} {batch : Batch}

theorem range_of_eq (counts : List Nat) {numTokens start : Nat} (reached : start ≤ numTokens) :
    GraphConfig.rangeOf numTokens start counts = counts.find? fun count => numTokens ≤ count := by
  induction counts generalizing start with
  | nil => rfl
  | cons count rest ih =>
      unfold GraphConfig.rangeOf
      by_cases fits : numTokens ≤ count
      · rw [if_pos ⟨reached, fits⟩]
        simp [fits]
      · rw [if_neg fun both => fits both.2, ih (by omega)]
        simp [fits]

theorem find_least {counts : List Nat} (ascending : counts.Pairwise (· ≤ ·)) {numTokens count : Nat}
    (found : (counts.find? fun count => numTokens ≤ count) = some count) :
    ∀ other ∈ counts, numTokens ≤ other → count ≤ other := by
  induction counts with
  | nil => exact nofun
  | cons first rest ih =>
      obtain ⟨above, ascending⟩ := List.pairwise_cons.mp ascending
      intro other member fits
      rw [List.find?_cons] at found
      by_cases reached : numTokens ≤ first
      · simp only [reached, decide_true, Option.some.injEq] at found
        subst found
        rcases List.mem_cons.mp member with rfl | later
        · exact le_rfl
        · exact above other later
      · simp only [reached, decide_false] at found
        rcases List.mem_cons.mp member with rfl | later
        · exact absurd fits reached
        · exact ih ascending found other later fits

/-- The descriptor serves the batch, and no captured graph has a token count between them. -/
structure FirstFit (config : GraphConfig) (batch : Batch) (desc : BatchExecutionDescriptor) :
    Prop where
  captured : desc ∈ config.captureDescs
  compatible : isCompatible desc batch = true
  first : ∀ other ∈ config.captureDescs, batch.numTokens ≤ other.numTokens →
    desc.numTokens ≤ other.numTokens

theorem compatible_tokens {desc : BatchExecutionDescriptor}
    (compatible : isCompatible desc batch = true) :
    batch.numTokens ≤ desc.numTokens ∧ desc.numActiveLoras = batch.numActiveLoras := by
  unfold isCompatible at compatible
  simp only [Bool.and_eq_true, decide_eq_true_eq] at compatible
  exact ⟨compatible.1.2, compatible.2⟩

theorem mem_all_token_counts {count : Nat} :
    count ∈ config.allTokenCounts ↔ ∃ desc ∈ config.captureDescs, desc.numTokens = count := by
  unfold GraphConfig.allTokenCounts
  rw [List.mem_insertionSort, List.mem_dedup, List.mem_map]

/-- The candidates of a batch are the captured descriptors with the next token count. -/
theorem mem_candidates {descs : List BatchExecutionDescriptor} {numTokens numActiveLoras : Nat}
    (found : config.candidates numTokens numActiveLoras = some descs)
    (desc : BatchExecutionDescriptor) :
    desc ∈ descs ↔ desc ∈ config.captureDescs ∧ desc.numActiveLoras = numActiveLoras ∧
      numTokens ≤ desc.numTokens ∧ ∀ other ∈ config.captureDescs, numTokens ≤ other.numTokens →
        desc.numTokens ≤ other.numTokens := by
  obtain ⟨count, range, staged⟩ := Option.bind_eq_some_iff.mp found
  rw [range_of_eq _ (Nat.zero_le _)] at range
  have fits := List.find?_some range
  have fits : numTokens ≤ count := of_decide_eq_true fits
  have least := find_least (List.pairwise_insertionSort _ _) range
  obtain ⟨holder, held, same⟩ := mem_all_token_counts.mp (List.mem_of_find?_eq_some range)
  dsimp only at staged
  split at staged
  · cases staged
    rw [List.mem_filter, Bool.and_eq_true, decide_eq_true_eq, decide_eq_true_eq]
    constructor
    · rintro ⟨captured, rfl, loras⟩
      exact ⟨captured, loras, fits, fun other member above =>
        least _ (mem_all_token_counts.mpr ⟨other, member, rfl⟩) above⟩
    · rintro ⟨captured, loras, above, first⟩
      refine ⟨captured, le_antisymm ?_ ?_, loras⟩
      · exact same ▸ first holder held (same ▸ fits)
      · exact least _ (mem_all_token_counts.mpr ⟨desc, captured, rfl⟩) above
  · cases staged

theorem candidates_of_first {desc : BatchExecutionDescriptor} (first : FirstFit config batch desc) :
    ∃ descs, config.candidates batch.numTokens batch.numActiveLoras = some descs := by
  obtain ⟨fits, loras⟩ := compatible_tokens first.compatible
  have listed : desc.numTokens ∈ config.allTokenCounts :=
    mem_all_token_counts.mpr ⟨desc, first.captured, rfl⟩
  have some : (config.allTokenCounts.find? fun count => batch.numTokens ≤ count).isSome := by
    rw [List.find?_isSome]
    exact ⟨_, listed, decide_eq_true fits⟩
  obtain ⟨count, found⟩ := Option.isSome_iff_exists.mp some
  have same : count = desc.numTokens := by
    apply le_antisymm
    · exact find_least (List.pairwise_insertionSort _ _) found _ listed fits
    · obtain ⟨holder, held, rfl⟩ := mem_all_token_counts.mp (List.mem_of_find?_eq_some found)
      have reached := List.find?_some found
      exact first.first holder held (of_decide_eq_true reached)
  unfold GraphConfig.candidates
  rw [range_of_eq _ (Nat.zero_le _), found]
  dsimp only [Option.bind_some, bind, Option.bind]
  rw [if_pos]
  · exact ⟨_, rfl⟩
  · refine ⟨loras ▸ (captured_filed config first.captured).2, ?_⟩
    apply List.ne_nil_of_mem
    rw [List.mem_filter]
    exact ⟨first.captured, by simp [same, loras]⟩

/-- The dispatch takes a captured graph that serves the batch where one does, and runs eagerly
only where none does. -/
structure DispatchExact (config : GraphConfig) (batch : Batch) : Prop where
  sound : (config.dispatch batch).cgMode ≠ .none →
    config.dispatch batch ∈ config.captureDescs ∧
      isCompatible (config.dispatch batch) (config.resolve batch) = true
  complete : (config.dispatch batch).cgMode = .none →
    ∀ desc ∈ config.captureDescs, isCompatible desc (config.resolve batch) = false

theorem dispatch_cases (positive : 0 < batch.numTokens) :
    FirstFit config (config.resolve batch) (config.dispatch batch) ∨
      (config.dispatch batch).cgMode = .none ∧
        ∀ desc, ¬FirstFit config (config.resolve batch) desc := by
  have some : 0 < (config.resolve batch).numTokens := positive
  unfold GraphConfig.dispatch
  dsimp only
  rw [if_pos some]
  cases found : config.candidates (config.resolve batch).numTokens
      (config.resolve batch).numActiveLoras with
  | none =>
      refine .inr ⟨rfl, fun desc first => ?_⟩
      obtain ⟨descs, present⟩ := candidates_of_first first
      rw [found] at present
      cases present
  | some descs =>
      dsimp only
      have members := mem_candidates found
      cases chosen : descs.find? fun desc => isCompatible desc (config.resolve batch) with
      | none =>
          refine .inr ⟨rfl, fun desc first => ?_⟩
          obtain ⟨fits, loras⟩ := compatible_tokens first.compatible
          have listed := (members desc).mpr ⟨first.captured, loras, fits, first.first⟩
          exact absurd first.compatible (List.find?_eq_none.mp chosen desc listed)
      | some desc =>
          obtain ⟨captured, _, _, first⟩ := (members desc).mp (List.mem_of_find?_eq_some chosen)
          have served := List.find?_some chosen
          exact .inl ⟨captured, served, first⟩

/-- The dispatch is exact for a batch exactly when a graph of the next token count serves it,
or no captured graph does. -/
theorem dispatch_exact_iff (positive : 0 < batch.numTokens) :
    DispatchExact config batch ↔
      ((∃ desc ∈ config.captureDescs, isCompatible desc (config.resolve batch) = true) →
        ∃ desc, FirstFit config (config.resolve batch) desc) := by
  rcases @dispatch_cases config batch positive with chosen | ⟨eager, none⟩
  · refine ⟨fun _ _ => ⟨_, chosen⟩, fun _ => ⟨fun _ => ⟨chosen.captured, chosen.compatible⟩, ?_⟩⟩
    exact fun mode => absurd mode (captured_filed config chosen.captured).1
  · constructor
    · rintro exact_ ⟨desc, captured, compatible⟩
      rw [exact_.complete eager desc captured] at compatible
      cases compatible
    · refine fun serves => ⟨fun mode => absurd eager mode, fun _ desc captured => ?_⟩
      by_contra compatible
      obtain ⟨first, fits⟩ := serves ⟨desc, captured, by simpa using compatible⟩
      exact none first fits

end Dispatch

/-- Three tokens a decode, up to four requests; full graphs decode and piecewise ones take the
rest. -/
def draftConfig : GraphConfig where
  captureSizes := [1, 2, 4]
  maxCgCaptureSize := 4
  maxNumReqs := 4
  cudagraphMode :=
    { isNone := false
      decodeMode := .full
      mixedMode := .piecewise
      separateRoutine := true
      hasFull := true
      full_of_decode := fun _ => rfl
      some_of_decode := fun _ => rfl }
  decodeQueryLen := 3
  decodeQueryLens := [3]
  loraCaptureCases := [0]

/-- Two requests with three tokens between them. -/
def mixedBatch : Batch := ⟨2, 3, none, 0, none⟩

/-- A piecewise graph of four tokens serves the mixed batch, but the graph of three tokens
that decodes one request hides it. -/
theorem decode_graph_hides_mixed :
    (∃ desc ∈ draftConfig.captureDescs,
      isCompatible desc (draftConfig.resolve mixedBatch) = true) ∧
    (draftConfig.dispatch mixedBatch).cgMode = .none := by
  decide +kernel

theorem decode_batch_dispatched :
    DispatchExact draftConfig ⟨3, 9, some 3, 0, none⟩ ∧
      (draftConfig.dispatch ⟨3, 9, some 3, 0, none⟩).numTokens = 9 := by
  refine ⟨(dispatch_exact_iff (by decide)).mpr fun _ => ?_, by decide +kernel⟩
  have listed : draftConfig.uniformDesc 3 3 0 ∈ draftConfig.captureDescs ∧
      isCompatible (draftConfig.uniformDesc 3 3 0)
        (draftConfig.resolve ⟨3, 9, some 3, 0, none⟩) = true ∧
      ∀ other ∈ draftConfig.captureDescs, 9 ≤ other.numTokens → 9 ≤ other.numTokens := by
    decide +kernel
  exact ⟨_, listed.1, listed.2.1, listed.2.2⟩

end KvOffload.GraphCandidates
