import KvOffload.Base
import KvOffload.SharedProcesses

/-!
# Opening of the shared region

The workers agree on the file behind the tier by the file system alone: who creates it
exclusively sets its size, and the others wait for that. With huge pages the creator checks the
mount first; where it gives up it removes its stub, and goes on with the file in shared memory.
Each system call is a step of its own, but the polls of a file's size are one step, as are the
reads of the mount. Everything after the file is open is left out.
-/

namespace KvOffload.RegionOpening

open KvOffload KvOffload.Base KvOffload.SharedProcesses

set_option autoImplicit false

inductive Tier where
  | hugetlb
  | shm
  deriving DecidableEq

/-- The files of both directories, numbered as they are created. -/
structure Files where
  entry : Tier → Option Nat := fun _ => none
  size : Nat → Nat := fun _ => 0
  created : Nat := 0

namespace Files

variable (files : Files)

def create (tier : Tier) : Files where
  entry := Function.update files.entry tier (some files.created)
  size := Function.update files.size files.created 0
  created := files.created + 1

def truncate (file bytes : Nat) : Files :=
  { files with size := Function.update files.size file bytes }

def unlink (tier : Tier) : Files :=
  { files with entry := Function.update files.entry tier none }

end Files

structure RegionConfig where
  pageSize : Nat
  rowStride : Nat
  numBlocks : Nat
  hugetlbRequested : Bool
  aligned : pageSize ∣ rowStride

def RegionConfig.totalSizeBytes (config : RegionConfig) : Nat :=
  config.numBlocks * config.rowStride

/-- What a creator reads of the host: the mount table, the block size of the mount and what
`/proc/meminfo` says of the size and the number of free huge pages. -/
structure Readings where
  isHugetlbfsMount : Bool
  blockSize : Option Nat
  meminfo : Option (Nat × Nat)
  deriving DecidableEq

inductive HugeTlbFallback where
  | notMounted
  | statvfsFailed
  | unexpectedBlockSize (blockSize : Nat)
  | meminfoUnreadable
  | pageSizesDiffer (blockSize meminfoPageSize : Nat)
  | rowStrideUnaligned (blockSize : Nat)
  | tooFewPages (hugepagesFree neededPages : Nat)
  deriving DecidableEq

/-- The size of the huge pages of the mount. -/
def validateHugetlbBacking (config : RegionConfig) (readings : Readings) :
    Except HugeTlbFallback Nat :=
  if readings.isHugetlbfsMount = false then .error .notMounted
  else match readings.blockSize with
    | none => .error .statvfsFailed
    | some blockSize =>
        if blockSize = 0 ∨ blockSize % config.pageSize ≠ 0 then
          .error (.unexpectedBlockSize blockSize)
        else match readings.meminfo with
          | none => .error .meminfoUnreadable
          | some (meminfoPageSize, hugepagesFree) =>
              if meminfoPageSize ≠ blockSize then
                .error (.pageSizesDiffer blockSize meminfoPageSize)
              else if config.rowStride % blockSize ≠ 0 then
                .error (.rowStrideUnaligned blockSize)
              else
                let neededPages := (config.totalSizeBytes + blockSize - 1) / blockSize
                if hugepagesFree < neededPages then
                  .error (.tooFewPages hugepagesFree neededPages)
                else .ok blockSize

/-- The size given to the file, in whole huge pages. -/
def ftruncateSize (config : RegionConfig) (hugePageSize : Nat) : Nat :=
  (config.totalSizeBytes + hugePageSize - 1) / hugePageSize * hugePageSize

/-- Where a worker is. -/
inductive Phase where
  | opening (tier : Tier)
  | joining (tier : Tier)
  | waiting (tier : Tier) (file : Nat)
  | doubting
  | created (tier : Tier) (file : Nat)
  | validated (file hugePageSize : Nat)
  | discarding (tier : Tier) (file : Nat)
  | opened (tier : Tier) (file : Nat) (creator : Bool)
  | failed
  deriving DecidableEq

/-- The system calls with their outcomes; `gaveUp` is the deadline, or a failing `fstat`. -/
inductive Call where
  | openExclusive
  | openFailed
  | reopen
  | reopenFailed
  | fileSize
  | gaveUp
  | pathExists
  | validate (readings : Readings)
  | ftruncate
  | ftruncateFailed
  | unlink
  | unlinkFailed
  deriving DecidableEq

/-- What an onlooker sees of the attempts with huge pages: a creator backed the file or was
refused, or a worker could not open a file that was there. -/
inductive Answer where
  | backed
  | refused
  | unreadable
  deriving DecidableEq

/-- The file system and the answers so far. -/
structure Host where
  files : Files := {}
  answers : List Answer := []

def Host.answer (host : Host) (answer : Answer) : Host :=
  { host with answers := host.answers ++ [answer] }

def Host.withFiles (host : Host) (files : Files) : Host := { host with files := files }

/-- Where a worker goes on that has no file in the tier. -/
def Phase.without : Tier → Phase
  | .hugetlb => .opening .shm
  | .shm => .failed

/-- One system call of a worker in a phase. -/
def act (config : RegionConfig) (host : Host) : Phase → Call → Except Unit (Phase × Host)
  | .opening tier, .openExclusive =>
      match host.files.entry tier with
      | none => .ok (.created tier host.files.created, host.withFiles (host.files.create tier))
      | some _ => .ok (.joining tier, host)
  | .opening _, .openFailed => .ok (.failed, host)
  | .joining tier, .reopen =>
      match host.files.entry tier with
      | none => .ok (.without tier, host)
      | some file => .ok (.waiting tier file, host)
  | .joining .hugetlb, .reopenFailed =>
      .ok (.without .hugetlb,
        if (host.files.entry .hugetlb).isSome then host.answer .unreadable else host)
  | .joining .shm, .reopenFailed => .ok (.without .shm, host)
  | .waiting tier file, .fileSize =>
      if config.totalSizeBytes ≤ host.files.size file then .ok (.opened tier file false, host)
      else .error ()
  | .waiting .hugetlb _, .gaveUp => .ok (.doubting, host)
  | .waiting .shm _, .gaveUp => .ok (.failed, host)
  | .doubting, .pathExists =>
      match host.files.entry .hugetlb with
      | none => .ok (.without .hugetlb, host)
      | some _ => .ok (.failed, host)
  | .created .hugetlb file, .validate readings =>
      match validateHugetlbBacking config readings with
      | .ok hugePageSize => .ok (.validated file hugePageSize, host)
      | .error _ => .ok (.discarding .hugetlb file, host.answer .refused)
  | .validated file hugePageSize, .ftruncate =>
      .ok (.opened .hugetlb file true, (host.withFiles
        (host.files.truncate file (ftruncateSize config hugePageSize))).answer .backed)
  | .validated file _, .ftruncateFailed =>
      .ok (.discarding .hugetlb file, host.answer .refused)
  | .created .shm file, .ftruncate =>
      .ok (.opened .shm file true,
        host.withFiles (host.files.truncate file config.totalSizeBytes))
  | .created .shm file, .ftruncateFailed => .ok (.discarding .shm file, host)
  | .discarding tier _, .unlink => .ok (.without tier, host.withFiles (host.files.unlink tier))
  | .discarding tier _, .unlinkFailed => .ok (.without tier, host)
  | _, _ => .error ()

abbrev Region := Processes Phase Host

def Region.start (config : RegionConfig) : Region where
  phases := fun _ => .opening (if config.hugetlbRequested then .hugetlb else .shm)
  shared := {}

section Validation

variable {config : RegionConfig}

/-- A mount that passes has whole pages for whole rows, so that the file is not rounded up. -/
theorem validated_size {readings : Readings} {hugePageSize : Nat}
    (valid : validateHugetlbBacking config readings = .ok hugePageSize) :
    0 < hugePageSize ∧ ftruncateSize config hugePageSize = config.totalSizeBytes := by
  unfold validateHugetlbBacking at valid
  split at valid
  · cases valid
  · split at valid
    · cases valid
    · rename_i blockSize _
      split at valid
      · cases valid
      · rename_i sized
        split at valid
        · cases valid
        · split at valid
          · cases valid
          · split at valid
            · cases valid
            · rename_i whole
              dsimp only at valid
              split at valid
              · cases valid
              · cases valid
                have positive : 0 < hugePageSize :=
                  Nat.pos_of_ne_zero fun zero => sized (.inl zero)
                have divides : hugePageSize ∣ config.totalSizeBytes :=
                  Dvd.dvd.mul_left (Nat.dvd_of_mod_eq_zero (not_not.mp whole)) _
                refine ⟨positive, ?_⟩
                obtain ⟨pages, total⟩ := divides
                unfold ftruncateSize
                rw [total]
                have rounded : (hugePageSize * pages + hugePageSize - 1) / hugePageSize = pages := by
                  refine Nat.div_eq_of_lt_le ?_ ?_
                  · rw [Nat.mul_comm]
                    omega
                  · rw [Nat.succ_mul, Nat.mul_comm]
                    omega
                rw [rounded, Nat.mul_comm]

end Validation

/-- The file that a worker answers for: it created it and has not removed it. -/
def Phase.owned : Phase → Option (Tier × Nat)
  | .created tier file => some (tier, file)
  | .validated file _ => some (.hugetlb, file)
  | .discarding tier file => some (tier, file)
  | .opened tier file true => some (tier, file)
  | _ => none

/-- The calls that are left when there is no file in a tier. -/
def Tier.reserve : Tier → Nat
  | .hugetlb => 4
  | .shm => 0

/-- The calls that a worker has left at most. -/
def Phase.left : Phase → Nat
  | .opening tier => tier.reserve + 4
  | .joining tier => tier.reserve + 3
  | .created tier _ => tier.reserve + 3
  | .waiting tier _ => tier.reserve + 2
  | .validated _ _ => Tier.hugetlb.reserve + 2
  | .doubting => Tier.hugetlb.reserve + 1
  | .discarding tier _ => tier.reserve + 1
  | .opened _ _ _ => 0
  | .failed => 0

/-- Calls that the system refuses, and the wait that is given up. -/
def Call.fails : Call → Bool
  | .openFailed | .reopenFailed | .gaveUp | .ftruncateFailed | .unlinkFailed => true
  | _ => false

def Phase.done : Phase → Bool
  | .opened _ _ _ | .failed => true
  | _ => false

/-- No two workers answer for one file. -/
def Apart (phase other : Phase) : Prop :=
  phase.owned = none ∨ phase.owned ≠ other.owned

/-- Huge pages are used when they are wanted, and shared memory only after something went
wrong with them. -/
def OnTier (config : RegionConfig) (host : Host) : Tier → Prop
  | .hugetlb => config.hugetlbRequested = true
  | .shm => config.hugetlbRequested = true → .refused ∈ host.answers ∨ .unreadable ∈ host.answers

/-- A file that was seen with huge pages is there, or was refused. -/
def Seen (host : Host) (tier : Tier) : Prop :=
  tier = .hugetlb → host.files.entry .hugetlb ≠ none ∨ .refused ∈ host.answers

/-- What a worker knows: the owner of a stub has it in the directory, a file of full size stays
there, and a worker waits for a file of its own tier. -/
def Knows (config : RegionConfig) (host : Host) : Phase → Prop
  | .opening tier => OnTier config host tier
  | .joining tier => OnTier config host tier ∧ Seen host tier
  | .waiting tier file => OnTier config host tier ∧ Seen host tier ∧ file < host.files.created ∧
      (∀ other, host.files.entry other = some file → other = tier) ∧
      (config.totalSizeBytes ≤ host.files.size file → host.files.entry tier = some file)
  | .doubting => OnTier config host .hugetlb ∧ Seen host .hugetlb
  | .created tier file => OnTier config host tier ∧ host.files.entry tier = some file ∧
      host.files.size file < config.totalSizeBytes
  | .validated file hugePageSize => OnTier config host .hugetlb ∧
      host.files.entry .hugetlb = some file ∧ host.files.size file < config.totalSizeBytes ∧
      ftruncateSize config hugePageSize = config.totalSizeBytes
  | .discarding tier file => OnTier config host tier ∧ host.files.entry tier = some file ∧
      host.files.size file < config.totalSizeBytes ∧ (tier = .hugetlb → .refused ∈ host.answers)
  | .opened tier file _ => OnTier config host tier ∧ host.files.entry tier = some file ∧
      config.totalSizeBytes ≤ host.files.size file
  | .failed => True

/-- The entries are different files, and one of full size with huge pages was backed. -/
structure Stored (config : RegionConfig) (host : Host) : Prop where
  fresh : ∀ tier file, host.files.entry tier = some file → file < host.files.created
  apart : ∀ tier other file, host.files.entry tier = some file →
    host.files.entry other = some file → tier = other
  backed : ∀ file, host.files.entry .hugetlb = some file →
    config.totalSizeBytes ≤ host.files.size file → .backed ∈ host.answers

section Frames

variable {config : RegionConfig} {host : Host} {phase : Phase}

theorem on_tier_answers {answers : List Answer} (more : host.answers ⊆ answers) {tier : Tier}
    (onTier : OnTier config host tier) (files : Files) :
    OnTier config ⟨files, answers⟩ tier := by
  cases tier with
  | hugetlb => exact onTier
  | shm =>
      intro requested
      exact (onTier requested).imp (@more _) (@more _)

/-- More answers leave everyone with what they know. -/
theorem knows_answers (knows : Knows config host phase) {answers : List Answer}
    (more : host.answers ⊆ answers) : Knows config ⟨host.files, answers⟩ phase := by
  have onTier : ∀ tier, OnTier config host tier → OnTier config ⟨host.files, answers⟩ tier :=
    fun tier on => on_tier_answers more on host.files
  have seen : ∀ tier, Seen host tier → Seen ⟨host.files, answers⟩ tier :=
    fun tier saw isHuge => (saw isHuge).imp_right (@more _)
  cases phase with
  | opening tier => exact onTier tier knows
  | joining tier => exact ⟨onTier tier knows.1, seen tier knows.2⟩
  | waiting tier file => exact ⟨onTier tier knows.1, seen tier knows.2.1, knows.2.2⟩
  | doubting => exact ⟨knows.1, seen .hugetlb knows.2⟩
  | created tier file => exact ⟨onTier tier knows.1, knows.2⟩
  | validated file hugePageSize => exact ⟨knows.1, knows.2⟩
  | discarding tier file =>
      obtain ⟨on, entry, small, refused⟩ := knows
      exact ⟨onTier tier on, entry, small, fun isHuge => more (refused isHuge)⟩
  | opened tier file creator => exact ⟨onTier tier knows.1, knows.2⟩
  | failed => trivial

theorem stored_answers (stored : Stored config host) {answers : List Answer}
    (more : host.answers ⊆ answers) : Stored config ⟨host.files, answers⟩ :=
  ⟨stored.fresh, stored.apart, fun file entry full => more (stored.backed file entry full)⟩

section Create

variable {tier : Tier} (absent : host.files.entry tier = none)

include absent

theorem entry_create {other : Tier} {file : Nat} (found : host.files.entry other = some file) :
    (host.files.create tier).entry other = some file := by
  refine (Function.update_of_ne ?_ _ _).trans found
  rintro rfl
  cases absent.symm.trans found

omit absent in
theorem size_create {file : Nat} (old : file < host.files.created) :
    (host.files.create tier).size file = host.files.size file :=
  Function.update_of_ne (Nat.ne_of_lt old) _ _

/-- A new file leaves everyone with what they know of the others. -/
theorem knows_create (stored : Stored config host) (knows : Knows config host phase) :
    Knows config (host.withFiles (host.files.create tier)) phase := by
  have seen : ∀ other, Seen host other → Seen (host.withFiles (host.files.create tier)) other := by
    intro other saw isHuge
    refine (saw isHuge).imp_left fun there => ?_
    obtain ⟨file, found⟩ := Option.ne_none_iff_exists'.mp there
    intro none
    cases (entry_create absent found).symm.trans none
  have sized : ∀ {other file}, host.files.entry other = some file →
      (host.files.create tier).size file = host.files.size file :=
    fun found => size_create (stored.fresh _ _ found)
  cases phase with
  | opening other => exact knows
  | joining other => exact ⟨knows.1, seen other knows.2⟩
  | waiting other file =>
      obtain ⟨on, saw, old, own, full⟩ := knows
      refine ⟨on, seen other saw, old.trans (Nat.lt_succ_self _), fun elsewhere found => ?_,
        fun enough => entry_create absent (full ?_)⟩
      · have found : Function.update host.files.entry tier (some host.files.created) elsewhere =
          some file := found
        by_cases same : elsewhere = tier
        · rw [same, Function.update_self] at found
          cases found
          exact absurd old (lt_irrefl _)
        · rw [Function.update_of_ne same] at found
          exact own elsewhere found
      · exact (size_create old) ▸ enough
  | doubting => exact ⟨knows.1, seen .hugetlb knows.2⟩
  | created other file =>
      obtain ⟨on, found, small⟩ := knows
      exact ⟨on, entry_create absent found, (sized found).symm ▸ small⟩
  | validated file hugePageSize =>
      obtain ⟨on, found, small, whole⟩ := knows
      exact ⟨on, entry_create absent found, (sized found).symm ▸ small, whole⟩
  | discarding other file =>
      obtain ⟨on, found, small, refused⟩ := knows
      exact ⟨on, entry_create absent found, (sized found).symm ▸ small, refused⟩
  | opened other file creator =>
      obtain ⟨on, found, full⟩ := knows
      exact ⟨on, entry_create absent found, (sized found).symm ▸ full⟩
  | failed => trivial

theorem stored_create (positive : 0 < config.totalSizeBytes) (stored : Stored config host) :
    Stored config (host.withFiles (host.files.create tier)) := by
  have entries : ∀ {other file}, (host.files.create tier).entry other = some file →
      other = tier ∧ file = host.files.created ∨ host.files.entry other = some file := by
    intro other file found
    have found : Function.update host.files.entry tier (some host.files.created) other =
      some file := found
    by_cases same : other = tier
    · rw [same, Function.update_self] at found
      exact .inl ⟨same, (Option.some.inj found).symm⟩
    · rw [Function.update_of_ne same] at found
      exact .inr found
  refine ⟨fun other file found => ?_, fun first second file left right => ?_,
    fun file found full => ?_⟩
  · rcases entries found with ⟨_, rfl⟩ | old
    · exact Nat.lt_succ_self _
    · exact (stored.fresh other file old).trans (Nat.lt_succ_self _)
  · rcases entries left with ⟨rfl, rfl⟩ | oldLeft
    · rcases entries right with ⟨rfl, _⟩ | oldRight
      · rfl
      · exact absurd (stored.fresh second _ oldRight) (lt_irrefl _)
    · rcases entries right with ⟨rfl, rfl⟩ | oldRight
      · exact absurd (stored.fresh first _ oldLeft) (lt_irrefl _)
      · exact stored.apart first second file oldLeft oldRight
  · rcases entries found with ⟨_, rfl⟩ | old
    · have empty : (host.files.create tier).size host.files.created = 0 :=
        Function.update_self ..
      have full : config.totalSizeBytes ≤ (host.files.create tier).size host.files.created := full
      rw [empty] at full
      exact absurd positive (Nat.not_lt.mpr full)
    · refine stored.backed file old ?_
      rw [← size_create (stored.fresh _ _ old)]
      exact full

end Create

section Owned

variable {tier : Tier} {file : Nat} (found : host.files.entry tier = some file)
  (stored : Stored config host) (knows : Knows config host phase)

include found stored knows

/-- The owner of a file gives it its full size. -/
theorem knows_truncate (other : phase.owned ≠ some (tier, file)) {bytes : Nat}
    (full : config.totalSizeBytes ≤ bytes) :
    Knows config (host.withFiles (host.files.truncate file bytes)) phase := by
  have same : ∀ {elsewhere}, host.files.entry elsewhere = some file → elsewhere = tier :=
    fun there => stored.apart _ _ _ there found
  have kept : ∀ {elsewhere another}, host.files.entry elsewhere = some another →
      (elsewhere, another) ≠ (tier, file) →
      (host.files.truncate file bytes).size another = host.files.size another := by
    intro elsewhere another there differs
    refine Function.update_of_ne (fun equal => differs ?_) _ _
    rw [equal] at there ⊢
    rw [same there]
  have enough : ∀ {another}, config.totalSizeBytes ≤ host.files.size another →
      config.totalSizeBytes ≤ (host.files.truncate file bytes).size another := by
    intro another before
    show _ ≤ Function.update host.files.size file bytes another
    rw [Function.update_apply]
    split
    · exact full
    · exact before
  have differs : ∀ {elsewhere another}, phase.owned = some (elsewhere, another) →
      (elsewhere, another) ≠ (tier, file) :=
    fun owned equal => other (owned.trans (congrArg some equal))
  cases phase with
  | opening another => exact knows
  | joining another => exact knows
  | waiting elsewhere another =>
      obtain ⟨on, saw, old, own, entry⟩ := knows
      refine ⟨on, saw, old, own, fun large => ?_⟩
      by_cases equal : another = file
      · rw [equal] at own ⊢
        rw [← own tier found]
        exact found
      · refine entry ?_
        exact (Function.update_of_ne equal bytes host.files.size) ▸ large
  | doubting => exact knows
  | created elsewhere another =>
      obtain ⟨on, there, small⟩ := knows
      exact ⟨on, there, (kept there (differs rfl)).symm ▸ small⟩
  | validated another hugePageSize =>
      obtain ⟨on, there, small, whole⟩ := knows
      exact ⟨on, there, (kept there (differs rfl)).symm ▸ small, whole⟩
  | discarding elsewhere another =>
      obtain ⟨on, there, small, refused⟩ := knows
      exact ⟨on, there, (kept there (differs rfl)).symm ▸ small, refused⟩
  | opened elsewhere another creator =>
      obtain ⟨on, there, large⟩ := knows
      exact ⟨on, there, enough large⟩
  | failed => trivial

omit stored in
/-- The owner of a stub takes it out of the directory. -/
theorem knows_unlink (other : phase.owned ≠ some (tier, file))
    (stub : host.files.size file < config.totalSizeBytes)
    (refused : tier = .hugetlb → .refused ∈ host.answers) :
    Knows config (host.withFiles (host.files.unlink tier)) phase := by
  have kept : ∀ {elsewhere another}, host.files.entry elsewhere = some another →
      (elsewhere, another) ≠ (tier, file) →
      (host.files.unlink tier).entry elsewhere = some another := by
    intro elsewhere another there differs
    refine (Function.update_of_ne (fun equal => differs ?_) _ _).trans there
    rw [equal] at there ⊢
    cases there.symm.trans found
    rfl
  have seen : ∀ elsewhere, Seen host elsewhere →
      Seen (host.withFiles (host.files.unlink tier)) elsewhere := by
    intro elsewhere saw isHuge
    cases tier with
    | hugetlb => exact .inr (refused rfl)
    | shm => exact (saw isHuge).imp_left fun there => there
  have large : ∀ {elsewhere another}, config.totalSizeBytes ≤ host.files.size another →
      (elsewhere, another) ≠ (tier, file) := by
    intro elsewhere another enough equal
    cases equal
    exact absurd stub (Nat.not_lt.mpr enough)
  have differs : ∀ {elsewhere another}, phase.owned = some (elsewhere, another) →
      (elsewhere, another) ≠ (tier, file) :=
    fun owned equal => other (owned.trans (congrArg some equal))
  cases phase with
  | opening another => exact knows
  | joining another => exact ⟨knows.1, seen another knows.2⟩
  | waiting elsewhere another =>
      obtain ⟨on, saw, old, own, entry⟩ := knows
      refine ⟨on, seen elsewhere saw, old, fun place there => own place ?_,
        fun enough => kept (entry enough) (large enough)⟩
      have there : Function.update host.files.entry tier none place = some another := there
      by_cases equal : place = tier
      · rw [equal, Function.update_self] at there
        cases there
      · rw [Function.update_of_ne equal] at there
        exact there
  | doubting => exact ⟨knows.1, seen .hugetlb knows.2⟩
  | created elsewhere another =>
      obtain ⟨on, there, small⟩ := knows
      exact ⟨on, kept there (differs rfl), small⟩
  | validated another hugePageSize =>
      obtain ⟨on, there, small, whole⟩ := knows
      exact ⟨on, kept there (differs rfl), small, whole⟩
  | discarding elsewhere another =>
      obtain ⟨on, there, small, refusal⟩ := knows
      exact ⟨on, kept there (differs rfl), small, refusal⟩
  | opened elsewhere another creator =>
      obtain ⟨on, there, enough⟩ := knows
      exact ⟨on, kept there (large enough), enough⟩
  | failed => trivial

end Owned

theorem stored_truncate {tier : Tier} {file bytes : Nat}
    (found : host.files.entry tier = some file) (stored : Stored config host)
    (backed : tier = .hugetlb → .backed ∈ host.answers) :
    Stored config (host.withFiles (host.files.truncate file bytes)) := by
  refine ⟨stored.fresh, stored.apart, fun another there full => ?_⟩
  by_cases equal : another = file
  · rw [equal] at there
    exact backed (stored.apart _ _ _ found there)
  · refine stored.backed another there ?_
    exact (Function.update_of_ne equal bytes host.files.size) ▸ full

theorem stored_unlink (stored : Stored config host) (tier : Tier) :
    Stored config (host.withFiles (host.files.unlink tier)) := by
  have entries : ∀ {other file}, (host.files.unlink tier).entry other = some file →
      host.files.entry other = some file := by
    intro other file there
    have there : Function.update host.files.entry tier none other = some file := there
    by_cases equal : other = tier
    · rw [equal, Function.update_self] at there
      cases there
    · rw [Function.update_of_ne equal] at there
      exact there
  exact ⟨fun other file there => stored.fresh other file (entries there),
    fun first second file left right => stored.apart first second file (entries left) (entries right),
    fun file there full => stored.backed file (entries there) full⟩

end Frames

end KvOffload.RegionOpening
