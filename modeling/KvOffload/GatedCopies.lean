import Mathlib.Data.Finset.Lattice.Fold
import Mathlib.Data.Finset.Max
import Mathlib.Logic.Function.Basic

/-!
# Copies that wait for each other

Workers carry out transfers. A transfer that writes changes its cells in any order until it
is done, when every cell holds what the transfer puts there. A worker takes a transfer up
only after it is done with the transfers that the order told it to wait for. What a cell is
claimed to hold stays there as long as no transfer that may run writes the cell.
-/

namespace KvOffload.GatedCopies

set_option autoImplicit false

variable {Job Worker Cell Content : Type}

/-- The cells of a transfer with what belongs in them. -/
structure Transfer (Cell Content : Type) where
  writes : Bool
  slots : List (Content × Cell)
  deriving DecidableEq

/-- `flushed` are the transfers that every later order waits for. -/
structure Fleet (Job Worker Cell Content : Type) where
  cells : Worker → Cell → Option Content := fun _ _ => none
  done : Job → Finset Worker := fun _ => ∅
  sent : Finset Job := ∅
  awaited : Job → Finset Job := fun _ => ∅
  flushed : Finset Job := ∅

variable [DecidableEq Job] [DecidableEq Worker] [DecidableEq Cell]

namespace Fleet

variable (fleet : Fleet Job Worker Cell Content)

/-- An order: the new transfers wait for those flushed so far that earlier orders have sent. A
transfer that is flushed by its own order is waited for by later ones. -/
def send (jobs flush : Finset Job) : Fleet Job Worker Cell Content :=
  { fleet with
    sent := fleet.sent ∪ jobs
    awaited := fun job =>
      if job ∈ fleet.sent then fleet.awaited job else (fleet.flushed ∪ flush) ∩ fleet.sent
    flushed := fleet.flushed ∪ flush }

def overwrite (worker : Worker) (cell : Cell) (content : Option Content) :
    Fleet Job Worker Cell Content :=
  { fleet with
    cells := Function.update fleet.cells worker
      (Function.update (fleet.cells worker) cell content) }

def finish (worker : Worker) (job : Job) : Fleet Job Worker Cell Content :=
  { fleet with done := Function.update fleet.done job (insert worker (fleet.done job)) }

/-- The worker is at the transfer or may take it up. -/
def Runs (worker : Worker) (job : Job) : Prop :=
  job ∈ fleet.sent ∧ worker ∉ fleet.done job ∧
    ∀ other ∈ fleet.awaited job, worker ∈ fleet.done other

instance (worker : Worker) (job : Job) : Decidable (fleet.Runs worker job) :=
  inferInstanceAs (Decidable (_ ∧ _ ∧ _))

end Fleet

/-- Some transfer that the worker may run writes the cell. -/
def Writable (table : Job → Option (Transfer Cell Content))
    (fleet : Fleet Job Worker Cell Content) (worker : Worker) (cell : Cell) : Prop :=
  ∃ job transfer, fleet.Runs worker job ∧ table job = some transfer ∧
    transfer.writes = true ∧ cell ∈ transfer.slots.map Prod.snd

/-- The transfer's cells hold what belongs in them. -/
def Filled (fleet : Fleet Job Worker Cell Content) (worker : Worker)
    (transfer : Transfer Cell Content) : Prop :=
  ∀ slot ∈ transfer.slots, fleet.cells worker slot.2 = some slot.1

instance [DecidableEq Content] (fleet : Fleet Job Worker Cell Content) (worker : Worker)
    (transfer : Transfer Cell Content) : Decidable (Filled fleet worker transfer) :=
  inferInstanceAs (Decidable (∀ slot ∈ _, _ = _))

/-- What the workers do by themselves. -/
inductive WorkerEvent (Job Worker Cell Content : Type) where
  | copying (worker : Worker) (job : Job) (cell : Cell) (content : Option Content)
  | copied (worker : Worker) (job : Job)

def WorkerEvent.actor : WorkerEvent Job Worker Cell Content → Worker
  | .copying worker _ _ _ => worker
  | .copied worker _ => worker

section Events

variable (table : Job → Option (Transfer Cell Content))

def applyWorker (fleet : Fleet Job Worker Cell Content) :
    WorkerEvent Job Worker Cell Content → Fleet Job Worker Cell Content
  | .copying worker _ cell content => fleet.overwrite worker cell content
  | .copied worker job => fleet.finish worker job

/-- A transfer that reads may be done at any time, one that writes once it has written. -/
def Allowed (fleet : Fleet Job Worker Cell Content) :
    WorkerEvent Job Worker Cell Content → Prop
  | .copying worker job cell _ => fleet.Runs worker job ∧
      ∃ transfer ∈ table job, transfer.writes = true ∧ cell ∈ transfer.slots.map Prod.snd
  | .copied worker job => fleet.Runs worker job ∧
      ∃ transfer ∈ table job, transfer.writes = true → Filled fleet worker transfer

instance [DecidableEq Content] (fleet : Fleet Job Worker Cell Content)
    (event : WorkerEvent Job Worker Cell Content) : Decidable (Allowed table fleet event) :=
  match event with
  | .copying _ _ _ _ => inferInstanceAs (Decidable (_ ∧ ∃ transfer ∈ _, _ ∧ _))
  | .copied _ _ => inferInstanceAs (Decidable (_ ∧ ∃ transfer ∈ _, _ → _))

variable {table} {fleet : Fleet Job Worker Cell Content}

omit [DecidableEq Job] in
theorem overwrite_cells (worker other : Worker) (cell otherCell : Cell)
    (content : Option Content) :
    (fleet.overwrite worker cell content).cells other otherCell =
      if other = worker ∧ otherCell = cell then content else fleet.cells other otherCell := by
  unfold Fleet.overwrite
  by_cases same : other = worker
  · subst same
    simp only [Function.update_self, Function.update_apply, true_and]
  · simp only [Function.update_of_ne same, same, false_and, if_false]

omit [DecidableEq Cell] in
theorem finish_done (worker other : Worker) (job otherJob : Job) :
    other ∈ (fleet.finish worker job).done otherJob ↔
      other = worker ∧ otherJob = job ∨ other ∈ fleet.done otherJob := by
  unfold Fleet.finish
  by_cases same : otherJob = job
  · subst same
    simp only [Function.update_self, Finset.mem_insert, and_true]
  · simp only [Function.update_of_ne same, same, and_false, false_or]

/-- A worker is only ever more done, and with what it may run. -/
theorem apply_worker_done {event : WorkerEvent Job Worker Cell Content}
    (allowed : Allowed table fleet event) (worker : Worker) (job : Job) :
    worker ∈ (applyWorker fleet event).done job ↔
      worker ∈ fleet.done job ∨ event = .copied worker job ∧ fleet.Runs worker job := by
  cases event with
  | copying _ _ _ _ => simp [applyWorker, Fleet.overwrite]
  | copied other otherJob =>
      have runs := allowed.1
      simp only [applyWorker, finish_done, WorkerEvent.copied.injEq]
      constructor
      · rintro (⟨rfl, rfl⟩ | already)
        · exact .inr ⟨⟨rfl, rfl⟩, runs⟩
        · exact .inl already
      · rintro (already | ⟨⟨rfl, rfl⟩, _⟩)
        · exact .inr already
        · exact .inl ⟨rfl, rfl⟩

theorem apply_worker_sent (event : WorkerEvent Job Worker Cell Content) :
    (applyWorker fleet event).sent = fleet.sent ∧
      (applyWorker fleet event).awaited = fleet.awaited ∧
      (applyWorker fleet event).flushed = fleet.flushed := by
  cases event with
  | copying _ _ _ _ => exact ⟨rfl, rfl, rfl⟩
  | copied _ _ => exact ⟨rfl, rfl, rfl⟩

/-- A cell that no running transfer writes keeps its content. -/
theorem apply_worker_cells {event : WorkerEvent Job Worker Cell Content}
    (allowed : Allowed table fleet event) {worker : Worker} {cell : Cell}
    (shielded : ¬Writable table fleet worker cell) :
    (applyWorker fleet event).cells worker cell = fleet.cells worker cell := by
  cases event with
  | copied _ _ => rfl
  | copying other job otherCell content =>
      obtain ⟨runs, transfer, isTransfer, writes, inside⟩ := allowed
      refine (overwrite_cells other worker otherCell cell content).trans (if_neg ?_)
      rintro ⟨rfl, rfl⟩
      exact shielded ⟨job, transfer, runs, isTransfer, writes, inside⟩

/-- A transfer that writes leaves its content behind. -/
theorem copied_filled {worker : Worker} {job : Job} {transfer : Transfer Cell Content}
    (allowed : Allowed table fleet (.copied worker job)) (isTransfer : table job = some transfer)
    (writes : transfer.writes = true) :
    Filled (applyWorker fleet (.copied worker job)) worker transfer := by
  obtain ⟨_, other, isOther, filled⟩ := allowed
  cases isTransfer.symm.trans isOther
  exact filled writes

end Events

section Orders

variable (fleet : Fleet Job Worker Cell Content) (flushing : Finset Job)

/-- The first transfer is taken up only after the second: its order says so already, or the
transfer is not sent and the next order will. -/
def Waits (first second : Job) : Prop :=
  if first ∈ fleet.sent then second ∈ fleet.awaited first
  else second ∈ flushing ∧ second ∈ fleet.sent

variable {fleet flushing}

omit [DecidableEq Worker] [DecidableEq Cell] in
/-- A transfer does not run while another that it waits for is not done. -/
theorem not_runs_of_waits {worker : Worker} {first second : Job}
    (waits : Waits fleet flushing first second) (unfinished : worker ∉ fleet.done second) :
    ¬fleet.Runs worker first := by
  rintro ⟨sent, _, released⟩
  rw [Waits, if_pos sent] at waits
  exact unfinished (released second waits)

omit [DecidableEq Worker] [DecidableEq Cell] in
theorem waits_mono {later : Finset Job} {first second : Job} (more : flushing ⊆ later)
    (waits : Waits fleet flushing first second) : Waits fleet later first second := by
  unfold Waits at *
  split
  · rename_i sent
    rwa [if_pos sent] at waits
  · rename_i unsent
    rw [if_neg unsent] at waits
    exact waits.imp_left (@more second)

omit [DecidableEq Worker] [DecidableEq Cell] in
/-- An order that flushes what is to be flushed keeps who waits for whom. -/
theorem waits_send {jobs flush : Finset Job} {first second : Job}
    (flushes : flushing ⊆ fleet.flushed ∪ flush) (waits : Waits fleet flushing first second) :
    Waits (fleet.send jobs flush) (fleet.flushed ∪ flush) first second := by
  unfold Waits at *
  simp only [Fleet.send, Finset.mem_union]
  by_cases sent : first ∈ fleet.sent
  · rw [if_pos sent] at waits
    simpa only [sent, true_or, if_true] using waits
  · rw [if_neg sent] at waits
    obtain ⟨waiting, known⟩ := waits
    have flushed := flushes waiting
    rw [if_neg sent]
    split
    · exact Finset.mem_inter.mpr ⟨flushed, known⟩
    · exact ⟨Finset.mem_union.mp flushed, .inl known⟩

theorem waits_worker (event : WorkerEvent Job Worker Cell Content) {first second : Job}
    (waits : Waits fleet flushing first second) :
    Waits (applyWorker fleet event) flushing first second := by
  have kept := @apply_worker_sent _ _ _ _ _ _ _ fleet event
  rwa [Waits, kept.1, kept.2.1]

end Orders

section Progress

variable {fleet : Fleet Job Worker Cell Content}

/-- A transfer waits only for transfers of earlier orders. -/
def Ranked (fleet : Fleet Job Worker Cell Content) : Prop :=
  ∃ rank : Job → Nat, ∀ job ∈ fleet.sent, ∀ other ∈ fleet.awaited job,
    other ∈ fleet.sent ∧ rank other < rank job

omit [DecidableEq Job] [DecidableEq Worker] [DecidableEq Cell] in
theorem ranked_start : Ranked ({} : Fleet Job Worker Cell Content) :=
  ⟨fun _ => 0, fun job sent => absurd sent (Finset.notMem_empty job)⟩

omit [DecidableEq Worker] [DecidableEq Cell] in
theorem ranked_send (ranked : Ranked fleet) (jobs flush : Finset Job) :
    Ranked (fleet.send jobs flush) := by
  obtain ⟨rank, lower⟩ := ranked
  refine ⟨fun job => if job ∈ fleet.sent then rank job else fleet.sent.sup rank + 1, ?_⟩
  intro job _ other isAwaited
  dsimp only
  have isAwaited : other ∈ if job ∈ fleet.sent then fleet.awaited job
      else (fleet.flushed ∪ flush) ∩ fleet.sent := isAwaited
  split at isAwaited
  · rename_i sent
    obtain ⟨otherSent, below⟩ := lower job sent other isAwaited
    refine ⟨Finset.mem_union_left _ otherSent, ?_⟩
    rwa [if_pos otherSent, if_pos sent]
  · rename_i unsent
    have otherSent := (Finset.mem_inter.mp isAwaited).2
    refine ⟨Finset.mem_union_left _ otherSent, ?_⟩
    rw [if_pos otherSent, if_neg unsent]
    exact Nat.lt_succ_of_le (Finset.le_sup otherSent)

theorem ranked_worker (ranked : Ranked fleet) (event : WorkerEvent Job Worker Cell Content) :
    Ranked (applyWorker fleet event) := by
  obtain ⟨sent, awaited, _⟩ := @apply_worker_sent _ _ _ _ _ _ _ fleet event
  unfold Ranked
  rw [sent, awaited]
  exact ranked

omit [DecidableEq Job] [DecidableEq Cell] in
/-- A worker that is not done with all transfers can go on with one. -/
theorem exists_runs (ranked : Ranked fleet) {worker : Worker} {job : Job} (sent : job ∈ fleet.sent)
    (unfinished : worker ∉ fleet.done job) : ∃ next, fleet.Runs worker next := by
  obtain ⟨rank, lower⟩ := ranked
  -- the first of the transfers that are left waits for none of them
  obtain ⟨next, isNext, least⟩ := Finset.exists_min_image
    (fleet.sent.filter fun job => worker ∉ fleet.done job) rank
    ⟨job, Finset.mem_filter.mpr ⟨sent, unfinished⟩⟩
  obtain ⟨nextSent, nextUnfinished⟩ := Finset.mem_filter.mp isNext
  refine ⟨next, nextSent, nextUnfinished, fun other isAwaited => ?_⟩
  by_contra waits
  obtain ⟨otherSent, below⟩ := lower next nextSent other isAwaited
  exact absurd below (Nat.not_lt.mpr (least other (Finset.mem_filter.mpr ⟨otherSent, waits⟩)))

end Progress

end KvOffload.GatedCopies
