import KvOffload.Base

/-!
# Cudagraph dispatcher

The keys of the captured graphs and the table that pads a batch to a captured size. With a
separate decode routine the sizes of the decode keys come from request counts, while the
table pads every size up to the largest capture size to the next capture size.
-/

namespace KvOffload.DecodeGraphs

open KvOffload KvOffload.Base

set_option autoImplicit false

inductive RuntimeMode where
  | none
  | piecewise
  | full
  deriving DecidableEq

/-- What the engine's enumeration of graph modes answers. A mode that decodes with full
graphs has them and is not the empty mode. -/
structure CUDAGraphMode where
  isNone : Bool
  decodeMode : RuntimeMode
  mixedMode : RuntimeMode
  separateRoutine : Bool
  hasFull : Bool
  full_of_decode : decodeMode = .full → hasFull = true
  some_of_decode : decodeMode = .full → isNone = false

structure LoRAConfig where
  maxLoras : Nat
  specializeActiveLora : Bool

/-- `numReqs` is `none` where requests are not padded. -/
structure BatchDescriptor where
  numTokens : Nat
  numReqs : Option Nat := none
  uniform : Bool := false
  hasLora : Bool := false
  numActiveLoras : Nat := 0
  deriving DecidableEq

/-- `decodeCgBatches` holds the parts of `VLLM_MTP_DECODE_CG_BATCHES` that are integers, and
`decodeCgDisabled` tells that it is `0` or `disable`. `loraCounts` is what the engine's
`get_captured_lora_counts` returns. -/
structure VllmConfig where
  captureSizes : List Nat
  maxCaptureSize : Nat
  compileSizes : List Nat := []
  maxNumSeqs : Nat
  loraConfig : Option LoRAConfig := none
  specializeLora : Bool := false
  loraCounts : List Nat := []
  decodeCgDisabled : Bool := false
  decodeCgBatches : List Int := []
  ascending : captureSizes.Pairwise (· ≤ ·)
  ends : captureSizes.getLast? = some maxCaptureSize
  seqs_pos : 0 < maxNumSeqs

structure CudagraphDispatcher where
  config : VllmConfig
  cudagraphMode : CUDAGraphMode
  uniformDecodeQueryLen : Nat
  bsToPaddedGraphSize : List Nat
  piecewiseKeys : Finset BatchDescriptor
  fullKeys : Finset BatchDescriptor
  capturedLoraCounts : List Nat
  keysInitialized : Bool

/-- Python `list[index] = value`. -/
def setItem (table : List Nat) (index value : Nat) : Except PyError (List Nat) :=
  if index < table.length then .ok (table.set index value) else .error .indexError

def getItem (table : List Nat) (index : Nat) : Except PyError Nat :=
  match table[index]? with
  | none => .error .indexError
  | some value => .ok value

/-- `for index in indices: table[index] = value(index)`. -/
def setItems (value : Nat → Nat) : List Nat → List Nat → Except PyError (List Nat)
  | [], table => .ok table
  | index :: rest, table => do
      let table ← setItem table index (value index)
      setItems value rest table

/-- The table between consecutive sizes: a size is kept, what lies above it is padded to the
next one. -/
def padRows (start : Nat) : List Nat → List Nat → Except PyError (List Nat)
  | [], table => .ok table
  | endSize :: rest, table => do
      let table ← setItems (fun bs => if bs = start then start else endSize)
        (List.range' start (endSize - start)) table
      padRows endSize rest table

/-- The first captured size that takes a batch, and the batch's own size if there is none. -/
def firstFit (sizes : List Nat) (bs : Nat) : Nat :=
  (sizes.find? fun size => bs ≤ size).getD bs

section Tables

theorem set_items_spec (value : Nat → Nat) (indices : List Nat) {table : List Nat}
    (inside : ∀ index ∈ indices, index < table.length) :
    ∃ done, setItems value indices table = .ok done ∧ done.length = table.length ∧
      ∀ index, done[index]? = if index ∈ indices then some (value index) else table[index]? := by
  induction indices generalizing table with
  | nil => exact ⟨table, rfl, rfl, fun index => by simp⟩
  | cons first rest ih =>
      obtain ⟨fits, later⟩ := List.forall_mem_cons.mp inside
      have sized : ∀ index ∈ rest, index < (table.set first (value first)).length := by
        intro index member
        rw [List.length_set]
        exact later index member
      obtain ⟨done, call, length, entries⟩ := ih sized
      refine ⟨done, ?_, length.trans List.length_set, fun index => ?_⟩
      · unfold setItems setItem
        rw [if_pos fits, ok_bind]
        exact call
      · rw [entries, List.getElem?_set]
        by_cases listed : index ∈ rest
        · simp [listed]
        · by_cases same : first = index
          · subst same
            simp [listed, fits]
          · simp [listed, same, Ne.symm same]

/-- The entry of the table that the rows give an index. -/
def padValue (start : Nat) : List Nat → Nat → Option Nat
  | [], _ => none
  | endSize :: rest, bs =>
      if bs < endSize then some (if bs = start then start else endSize)
      else padValue endSize rest bs

theorem pad_rows_spec (ends : List Nat) {start : Nat} {table : List Nat}
    (ascending : (start :: ends).Pairwise (· ≤ ·))
    (inside : ∀ endSize ∈ ends, endSize ≤ table.length) :
    ∃ done, padRows start ends table = .ok done ∧ done.length = table.length ∧
      (∀ bs, bs < start → done[bs]? = table[bs]?) ∧
      ∀ bs, start ≤ bs → done[bs]? = (padValue start ends bs).or table[bs]? := by
  induction ends generalizing start table with
  | nil => exact ⟨table, rfl, rfl, fun _ _ => rfl, fun _ _ => rfl⟩
  | cons endSize rest ih =>
      obtain ⟨above, ascending⟩ := List.pairwise_cons.mp ascending
      obtain ⟨fits, later⟩ := List.forall_mem_cons.mp inside
      have startLe : start ≤ endSize := above endSize List.mem_cons_self
      obtain ⟨row, rowCall, rowLength, rowEntries⟩ := @set_items_spec
        (fun bs => if bs = start then start else endSize)
        (List.range' start (endSize - start)) table (by
          intro bs member
          rw [List.mem_range'_1] at member
          omega)
      obtain ⟨done, call, length, below, entries⟩ := ih ascending (fun other member =>
        rowLength ▸ later other member)
      refine ⟨done, ?_, length.trans rowLength, fun bs less => ?_, fun bs reached => ?_⟩
      · unfold padRows
        rw [rowCall, ok_bind]
        exact call
      · rw [below bs (less.trans_le startLe), rowEntries, if_neg]
        rw [List.mem_range'_1]
        omega
      · unfold padValue
        by_cases less : bs < endSize
        · rw [below bs less, rowEntries, if_pos, if_pos less]
          · rfl
          · rw [List.mem_range'_1]
            omega
        · rw [entries bs (Nat.le_of_not_lt less), if_neg less, rowEntries, if_neg]
          rw [List.mem_range'_1]
          omega

theorem pad_value_eq (sizes : List Nat) {start maxSize bs : Nat}
    (ascending : (start :: sizes).Pairwise (· ≤ ·))
    (last : (start :: sizes).getLast? = some maxSize) (lower : start ≤ bs) (upper : bs ≤ maxSize) :
    padValue start (sizes ++ [maxSize + 1]) bs =
      if bs = start then some start else sizes.find? fun size => bs ≤ size := by
  induction sizes generalizing start with
  | nil =>
      have same : start = maxSize := by simpa using last
      have reached : bs = start := by omega
      subst same
      simp [padValue, reached]
  | cons size rest ih =>
      obtain ⟨above, ascending⟩ := List.pairwise_cons.mp ascending
      have startLe : start ≤ size := above size List.mem_cons_self
      rw [List.cons_append, padValue]
      by_cases less : bs < size
      · rw [if_pos less]
        split
        · rfl
        · simp [less.le]
      · rw [if_neg less, ih ascending (by simpa using last) (Nat.le_of_not_lt less)]
        by_cases same : bs = size
        · subst same
          by_cases first : bs = start
          · simp [first]
          · simp [first]
        · have beyond : ¬bs ≤ size := by omega
          have later : bs ≠ start := by omega
          simp [same, later, beyond]

end Tables

namespace VllmConfig

variable (config : VllmConfig) (uniformDecodeQueryLen : Nat)

def allReqs : List Nat := List.range' 1 config.maxNumSeqs

/-- Request counts to capture for the uniform decode routine. -/
def decodeKeyReqs : List Nat :=
  if uniformDecodeQueryLen ≤ 1 then config.allReqs
  else if config.decodeCgDisabled then [1]
  else
    let reqs := config.decodeCgBatches.filterMap fun (part : Int) =>
      if 1 ≤ part ∧ part ≤ config.maxNumSeqs then some part.toNat else none
    if reqs = [] then config.allReqs else reqs.toFinset.sort (· ≤ ·)

def capturedDecodeTokens : List Nat :=
  ((config.decodeKeyReqs uniformDecodeQueryLen).map
    fun bs => bs * uniformDecodeQueryLen).toFinset.sort (· ≤ ·)

def getLoraCases : List Nat :=
  match config.loraConfig with
  | none => [0]
  | some lora => if config.specializeLora then 0 :: config.loraCounts else [lora.maxLoras + 1]

/-- The table reaches the largest uniform decode batch where that is padded separately. -/
def mapMax (separate : Bool) : Nat :=
  if 1 < uniformDecodeQueryLen ∧ separate = true then
    max config.maxCaptureSize (uniformDecodeQueryLen * config.maxNumSeqs)
  else config.maxCaptureSize

def computeBsToPaddedGraphSize (mode : CUDAGraphMode) : Except PyError (List Nat) := do
  let maxSize := config.maxCaptureSize
  let mapMax := config.mapMax uniformDecodeQueryLen mode.separateRoutine
  let table ← padRows 0 (config.captureSizes ++ [maxSize + 1]) (List.replicate (mapMax + 1) 0)
  let table ← setItems (firstFit (config.capturedDecodeTokens uniformDecodeQueryLen))
    (List.range' (maxSize + 1) (mapMax - maxSize)) table
  if config.compileSizes ≠ [] ∧ mode.isNone = false ∧
      ∃ size ∈ config.compileSizes, size ≤ maxSize ∧ table.getD size 0 ≠ size then
    .error .valueError
  else .ok table

/-- Every size that is compiled for itself and could be padded is a capture size. -/
def CompileSizesKept : Prop :=
  ∀ size ∈ config.compileSizes, 0 < size → size ≤ config.maxCaptureSize →
    firstFit config.captureSizes size = size

/-- What the table pads to: the next capture size, and past the largest one the next bucket
of the decode keys. -/
structure Pads (mode : CUDAGraphMode) (table : List Nat) : Prop where
  length : table.length = config.mapMax uniformDecodeQueryLen mode.separateRoutine + 1
  zero : table[0]? = some 0
  captured : ∀ bs, 0 < bs → bs ≤ config.maxCaptureSize →
    table[bs]? = some (firstFit config.captureSizes bs)
  decoded : ∀ bs, config.maxCaptureSize < bs →
    bs ≤ config.mapMax uniformDecodeQueryLen mode.separateRoutine →
    table[bs]? = some (firstFit (config.capturedDecodeTokens uniformDecodeQueryLen) bs)

theorem first_fit_captured {bs : Nat} (upper : bs ≤ config.maxCaptureSize) :
    ∃ size ∈ config.captureSizes, config.captureSizes.find? (fun size => bs ≤ size) = some size ∧
      bs ≤ size := by
  have present := List.mem_of_getLast? config.ends
  have exists_ : (config.captureSizes.find? fun size => bs ≤ size).isSome := by
    rw [List.find?_isSome]
    exact ⟨config.maxCaptureSize, present, decide_eq_true upper⟩
  obtain ⟨size, found⟩ := Option.isSome_iff_exists.mp exists_
  have fits := List.find?_some found
  exact ⟨size, List.mem_of_find?_eq_some found, found, of_decide_eq_true fits⟩

theorem le_max_of_mem {size : Nat} (member : size ∈ config.captureSizes) :
    size ≤ config.maxCaptureSize := by
  obtain ⟨front, split⟩ := List.getLast?_eq_some_iff.mp config.ends
  have ascending := config.ascending
  rw [split] at member ascending
  rcases List.mem_append.mp member with early | last
  · exact (List.pairwise_append.mp ascending).2.2 size early _ (List.mem_singleton_self _)
  · exact (List.mem_singleton.mp last).le

theorem compute_bs_spec (mode : CUDAGraphMode) :
    ∃ table, config.Pads uniformDecodeQueryLen mode table ∧
      config.computeBsToPaddedGraphSize uniformDecodeQueryLen mode =
        if config.compileSizes ≠ [] ∧ mode.isNone = false ∧
            ∃ size ∈ config.compileSizes, size ≤ config.maxCaptureSize ∧
              table.getD size 0 ≠ size then .error .valueError
        else .ok table := by
  have reach : config.maxCaptureSize ≤ config.mapMax uniformDecodeQueryLen
      mode.separateRoutine := by
    unfold mapMax
    split
    · exact le_max_left _ _
    · exact le_rfl
  have ascending : (0 :: (config.captureSizes ++ [config.maxCaptureSize + 1])).Pairwise
      (· ≤ ·) := by
    refine List.pairwise_cons.mpr ⟨fun _ _ => Nat.zero_le _, List.pairwise_append.mpr
      ⟨config.ascending, List.pairwise_singleton _ _, ?_⟩⟩
    intro size member top topMember
    rw [List.mem_singleton.mp topMember]
    exact (config.le_max_of_mem member).trans (Nat.le_succ _)
  obtain ⟨rows, rowsCall, rowsLength, _, rowsEntries⟩ := @pad_rows_spec
    (config.captureSizes ++ [config.maxCaptureSize + 1]) 0
    (List.replicate (config.mapMax uniformDecodeQueryLen mode.separateRoutine + 1) 0)
    ascending (by
      intro size member
      rw [List.length_replicate]
      rcases List.mem_append.mp member with captured | top
      · have := config.le_max_of_mem captured
        omega
      · rw [List.mem_singleton.mp top]
        omega)
  rw [List.length_replicate] at rowsLength
  obtain ⟨table, call, length, entries⟩ := @set_items_spec
    (firstFit (config.capturedDecodeTokens uniformDecodeQueryLen))
    (List.range' (config.maxCaptureSize + 1)
      (config.mapMax uniformDecodeQueryLen mode.separateRoutine - config.maxCaptureSize)) rows (by
      intro bs member
      rw [List.mem_range'_1] at member
      omega)
  have lastZero : (0 :: config.captureSizes).getLast? = some config.maxCaptureSize := by
    rw [List.getLast?_cons, config.ends]
    rfl
  have low : ∀ bs, bs ≤ config.maxCaptureSize → table[bs]? =
      (if bs = 0 then some 0 else config.captureSizes.find? fun size => bs ≤ size).or
        (List.replicate (config.mapMax uniformDecodeQueryLen mode.separateRoutine + 1) 0)[bs]? := by
    intro bs upper
    rw [entries, if_neg, rowsEntries bs (Nat.zero_le _), pad_value_eq config.captureSizes
      (List.pairwise_cons.mpr ⟨fun _ _ => Nat.zero_le _, config.ascending⟩) lastZero
      (Nat.zero_le _) upper]
    rw [List.mem_range'_1]
    omega
  refine ⟨table, ⟨length.trans rowsLength, ?_, ?_, ?_⟩, ?_⟩
  · rw [low 0 (Nat.zero_le _)]
    rfl
  · intro bs positive upper
    obtain ⟨size, _, found, _⟩ := config.first_fit_captured upper
    rw [low bs upper, if_neg positive.ne', found]
    unfold firstFit
    rw [found]
    rfl
  · intro bs lower upper
    rw [entries, if_pos]
    rw [List.mem_range'_1]
    omega
  · unfold computeBsToPaddedGraphSize
    dsimp only
    rw [rowsCall, ok_bind, call, ok_bind]

end VllmConfig

namespace CudagraphDispatcher

variable (dispatcher : CudagraphDispatcher)

def createPaddedBatchDescriptor (numTokens : Nat) (uniformDecode hasLora : Bool)
    (numActiveLoras : Nat) : Except PyError BatchDescriptor := do
  let numTokensPadded ← getItem dispatcher.bsToPaddedGraphSize numTokens
  if uniformDecode = true ∧ dispatcher.cudagraphMode.hasFull = true then do
    pyAssert (numTokensPadded % dispatcher.uniformDecodeQueryLen = 0)
    .ok {
      numTokens := numTokensPadded
      numReqs := some (min (numTokensPadded / dispatcher.uniformDecodeQueryLen)
        dispatcher.config.maxNumSeqs)
      uniform := true
      hasLora := hasLora
      numActiveLoras := numActiveLoras }
  else
    .ok {
      numTokens := numTokensPadded
      numReqs := some (min numTokensPadded dispatcher.config.maxNumSeqs)
      uniform := false
      hasLora := hasLora
      numActiveLoras := numActiveLoras }

/-- Keys exist for the two modes that replay graphs. -/
def addCudagraphKey (runtimeMode : RuntimeMode) (key : BatchDescriptor) :
    Except PyError CudagraphDispatcher :=
  match runtimeMode with
  | .none => .error .assertionError
  | .piecewise => .ok { dispatcher with piecewiseKeys := insert key dispatcher.piecewiseKeys }
  | .full => .ok { dispatcher with fullKeys := insert key dispatcher.fullKeys }

/-- One key of the mixed routine; piecewise graphs take any number of requests. -/
def addMixedKey (bs numActiveLoras : Nat) : Except PyError CudagraphDispatcher := do
  let key ← dispatcher.createPaddedBatchDescriptor bs false (decide (0 < numActiveLoras))
    numActiveLoras
  let key :=
    if dispatcher.cudagraphMode.mixedMode = .piecewise then
      { key with numReqs := none, uniform := false }
    else key
  dispatcher.addCudagraphKey dispatcher.cudagraphMode.mixedMode key

def addDecodeKey (bs numActiveLoras : Nat) : Except PyError CudagraphDispatcher := do
  let key ← dispatcher.createPaddedBatchDescriptor bs true (decide (0 < numActiveLoras))
    numActiveLoras
  dispatcher.addCudagraphKey .full key

/-- The sizes of the decode keys. -/
def decodeSizes : List Nat :=
  if 1 < dispatcher.uniformDecodeQueryLen then
    (dispatcher.config.decodeKeyReqs dispatcher.uniformDecodeQueryLen).map
      fun reqs => reqs * dispatcher.uniformDecodeQueryLen
  else
    dispatcher.config.captureSizes.filter fun size =>
      size ≤ dispatcher.uniformDecodeQueryLen * dispatcher.config.maxNumSeqs ∧
        dispatcher.uniformDecodeQueryLen ≤ size

def addKeys (add : CudagraphDispatcher → Nat → Nat → Except PyError CudagraphDispatcher)
    (dispatcher : CudagraphDispatcher) :
    List (Nat × Nat) → Except PyError CudagraphDispatcher
  | [] => .ok dispatcher
  | (bs, numActiveLoras) :: rest => do
      let dispatcher ← add dispatcher bs numActiveLoras
      addKeys add dispatcher rest

def addMixedKeys (loraCases : List Nat) : Except PyError CudagraphDispatcher :=
  if dispatcher.cudagraphMode.mixedMode = .none then .ok dispatcher
  else addKeys addMixedKey dispatcher (dispatcher.config.captureSizes.product loraCases)

def addDecodeKeys (loraCases : List Nat) : Except PyError CudagraphDispatcher :=
  if dispatcher.cudagraphMode.decodeMode = .full ∧
      dispatcher.cudagraphMode.separateRoutine = true then
    addKeys addDecodeKey dispatcher (dispatcher.decodeSizes.product loraCases)
  else .ok dispatcher

/-- The dispatcher before its keys are made. -/
def blank (config : VllmConfig) (mode : CUDAGraphMode) (uniformDecodeQueryLen : Nat)
    (table : List Nat) : CudagraphDispatcher where
  config := config
  cudagraphMode := mode
  uniformDecodeQueryLen := uniformDecodeQueryLen
  bsToPaddedGraphSize := table
  piecewiseKeys := ∅
  fullKeys := ∅
  capturedLoraCounts := config.getLoraCases.filter fun count => count ≠ 0
  keysInitialized := false

def initializeCudagraphKeys (config : VllmConfig) (mode : CUDAGraphMode)
    (uniformDecodeQueryLen : Nat) : Except PyError CudagraphDispatcher :=
  if mode.isNone then
    .ok { blank config mode uniformDecodeQueryLen [] with keysInitialized := true }
  else do
    let table ← config.computeBsToPaddedGraphSize uniformDecodeQueryLen mode
    let dispatcher ← (blank config mode uniformDecodeQueryLen table).addMixedKeys
      config.getLoraCases
    let dispatcher ← dispatcher.addDecodeKeys config.getLoraCases
    .ok { dispatcher with keysInitialized := true }

/-- `valid_modes or valid_runtime_modes()`, less the invalid ones. -/
def allowedModes (validModes invalidModes : Finset RuntimeMode) : Finset RuntimeMode :=
  (if validModes = ∅ then {.none, .piecewise, .full} else validModes) \ invalidModes

/-- The captured count of active LoRAs that serves a batch. -/
def effectiveLoras (hasLora : Bool) (numActiveLoras : Nat) : Except PyError Nat :=
  if hasLora = true ∧ 0 < numActiveLoras then
    if dispatcher.config.loraConfig.any LoRAConfig.specializeActiveLora then
      .ok ((dispatcher.capturedLoraCounts.find? fun count => numActiveLoras ≤ count).getD
        numActiveLoras)
    else
      match dispatcher.config.loraConfig with
      | none => .error .assertionError
      | some lora => .ok (lora.maxLoras + 1)
  else .ok numActiveLoras

def numTokensLimit (uniformDecode : Bool) : Nat :=
  if uniformDecode = true ∧ dispatcher.cudagraphMode.isNone = false ∧
      dispatcher.cudagraphMode.separateRoutine = true ∧ 1 < dispatcher.uniformDecodeQueryLen then
    max dispatcher.config.maxCaptureSize
      (dispatcher.uniformDecodeQueryLen * dispatcher.config.maxNumSeqs)
  else dispatcher.config.maxCaptureSize

/-- The look at the registered keys, the full ones first. -/
def matchKey (allowed : Finset RuntimeMode) (numTokens : Nat) (key : BatchDescriptor) :
    Except PyError (RuntimeMode × BatchDescriptor) :=
  let relaxed := { key with numReqs := none, uniform := false }
  if .full ∈ allowed ∧ key ∈ dispatcher.fullKeys then .ok (.full, key)
  else if .piecewise ∈ allowed ∧ relaxed ∈ dispatcher.piecewiseKeys then
    .ok (.piecewise, relaxed)
  else do
    pyAssert (.none ∈ allowed)
    .ok (.none, { numTokens := numTokens })

/-- Empty sets of modes stand for `None`. -/
def dispatch (numTokens : Nat) (uniformDecode hasLora : Bool) (numActiveLoras : Nat)
    (validModes invalidModes : Finset RuntimeMode) :
    Except PyError (RuntimeMode × BatchDescriptor) := do
  let allowed := allowedModes validModes invalidModes
  pyAssert (allowed ≠ ∅)
  if dispatcher.keysInitialized = false ∨ dispatcher.cudagraphMode.isNone = true ∨
      dispatcher.numTokensLimit uniformDecode < numTokens ∨ allowed ⊆ {.none} then
    .ok (.none, { numTokens := numTokens })
  else do
    let effective ← dispatcher.effectiveLoras hasLora numActiveLoras
    let key ← dispatcher.createPaddedBatchDescriptor numTokens
      (uniformDecode && dispatcher.cudagraphMode.separateRoutine) hasLora effective
    dispatcher.matchKey allowed numTokens key

def withKeys (piecewiseKeys fullKeys : Finset BatchDescriptor) : CudagraphDispatcher :=
  { dispatcher with piecewiseKeys := piecewiseKeys, fullKeys := fullKeys }

/-- The key of a uniform decode batch. -/
def decodeKey (numTokensPadded : Nat) (hasLora : Bool) (numActiveLoras : Nat) :
    BatchDescriptor where
  numTokens := numTokensPadded
  numReqs := some (min (numTokensPadded / dispatcher.uniformDecodeQueryLen)
    dispatcher.config.maxNumSeqs)
  uniform := true
  hasLora := hasLora
  numActiveLoras := numActiveLoras

/-- The decode keys that a list of sizes and LoRA counts asks for. -/
def Asked (entries : List (Nat × Nat)) (key : BatchDescriptor) : Prop :=
  ∃ entry ∈ entries, dispatcher.createPaddedBatchDescriptor entry.1 true
    (decide (0 < entry.2)) entry.2 = .ok key

end CudagraphDispatcher

end KvOffload.DecodeGraphs
