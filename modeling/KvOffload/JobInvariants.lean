import KvOffload.ConnectorBuilds

/-!
# Invariants of the job books

The jobs of the books and the jobs their requests list are the same, and every request
that was signaled waits for one. A block waits for exactly the jobs that read it: all
window blocks from the start, the others once the request has finished.
-/

namespace KvOffload.JobInvariants

open KvOffload KvOffload.Base KvOffload.ConnectorScheduler KvOffload.ManagerInterface
open KvOffload.JobBooks

set_option autoImplicit false

variable {M : Type}

structure JobInv (books : Desk M) : Prop where
  below : ∀ jobId job, books.jobs.get? jobId = some job → jobId < books.jobCounter
  live : ∀ jobId job, books.jobs.get? jobId = some job → books.staleJobThreshold ≤ jobId
  owned : ∀ jobId job, books.jobs.get? jobId = some job →
    ∃ request, books.requests job.reqId = some request ∧ jobId ∈ request.transferJobs
  listed : ∀ reqId request, books.requests reqId = some request →
    ∀ jobId ∈ request.transferJobs, ∃ job, books.jobs.get? jobId = some job ∧ job.reqId = reqId
  distinct : ∀ reqId request, books.requests reqId = some request → request.transferJobs.Nodup
  busy : ∀ reqId request, books.requests reqId = some request →
    request.finishedSignaled = true → request.transferJobs ≠ [] ∧ request.isFinished = true
  bounded : books.staleJobThreshold ≤ books.jobCounter

/-- The block waits for the job. -/
def Fenced (books : Desk M) (blockId : Nat) (jobId : JobId) : Prop :=
  ∃ job request, books.jobs.get? jobId = some job ∧
    books.requests job.reqId = some request ∧ blockId ∈ fencedOf job request.isFinished

structure FenceInv (books : Desk M) : Prop where
  no_empty : SetMap.NoEmpty books.fences
  exact : ∀ blockId jobId, SetMap.Holds books.fences blockId jobId ↔ Fenced books blockId jobId

/-- A change that keeps the jobs and the requests with their jobs. -/
theorem job_inv_with_manager {books : Desk M} (inv : JobInv books) (manager : M) :
    JobInv (books.withManager manager) :=
  ⟨inv.below, inv.live, inv.owned, inv.listed, inv.distinct, inv.busy, inv.bounded⟩

theorem fence_inv_with_manager {books : Desk M} (inv : FenceInv books) (manager : M) :
    FenceInv (books.withManager manager) :=
  ⟨inv.no_empty, inv.exact⟩

theorem fences_nothing {job : TransferJobStatus} {isFinished : Bool}
    (fenced : job.fencedBlockIds = []) (deferred : job.deferredFenceBlockIds = []) :
    fencedOf job isFinished = [] := by
  unfold fencedOf
  rw [fenced, deferred, ite_self, List.append_nil]

section Entry

variable {books : Desk M} {reqId : ReqId} {request : ReqBooks}

theorem get_enter_job (job : TransferJobStatus) (fenced : List Nat) (jobId : JobId) :
    (books.enter reqId request job fenced).jobs.get? jobId =
      if jobId = books.jobCounter then some job else books.jobs.get? jobId :=
  OrderedMap.get_set ..

theorem enter_requests (job : TransferJobStatus) (fenced : List Nat) (other : ReqId) :
    (books.enter reqId request job fenced).requests other =
      if other = reqId then some { request with
        transferJobs := request.transferJobs.insert books.jobCounter }
      else books.requests other :=
  Function.update_apply ..

theorem job_inv_enter (inv : JobInv books) (tracked : books.requests reqId = some request)
    {job : TransferJobStatus} (named : job.reqId = reqId) (fenced : List Nat) :
    JobInv (books.enter reqId request job fenced) := by
  have fresh : ∀ jobId job, books.jobs.get? jobId = some job → jobId ≠ books.jobCounter :=
    fun jobId job found => Nat.ne_of_lt (inv.below jobId job found)
  constructor
  · intro jobId found_job found
    rw [get_enter_job] at found
    split at found
    · rename_i same
      rw [same]
      exact Nat.lt_succ_self _
    · exact (inv.below jobId found_job found).trans (Nat.lt_succ_self _)
  · intro jobId found_job found
    rw [get_enter_job] at found
    split at found
    · rename_i same
      rw [same]
      exact inv.bounded
    · exact inv.live jobId found_job found
  · intro jobId found_job found
    rw [get_enter_job] at found
    rw [enter_requests]
    split at found
    · rename_i same
      cases found
      rw [if_pos named]
      exact ⟨_, rfl, same ▸ List.mem_insert_self⟩
    · obtain ⟨owner, ownerTracked, member⟩ := inv.owned jobId found_job found
      split
      · rename_i same
        rw [same] at ownerTracked
        cases ownerTracked.symm.trans tracked
        exact ⟨_, rfl, List.mem_insert_of_mem member⟩
      · exact ⟨owner, ownerTracked, member⟩
  · intro other kept found jobId member
    rw [enter_requests] at found
    rw [get_enter_job]
    split at found
    · rename_i same
      cases found
      rcases List.mem_insert_iff.mp member with new | old
      · rw [if_pos new]
        exact ⟨job, rfl, named.trans same.symm⟩
      · obtain ⟨listed, found, isOwner⟩ := inv.listed reqId request tracked jobId old
        rw [if_neg (fresh jobId listed found)]
        exact ⟨listed, found, isOwner.trans same.symm⟩
    · obtain ⟨listed, present, isOwner⟩ := inv.listed other kept found jobId member
      rw [if_neg (fresh jobId listed present)]
      exact ⟨listed, present, isOwner⟩
  · intro other kept found
    rw [enter_requests] at found
    split at found
    · cases found
      exact (inv.distinct reqId request tracked).insert
    · exact inv.distinct other kept found
  · intro other kept found signaled
    rw [enter_requests] at found
    split at found
    · cases found
      exact ⟨List.ne_nil_of_mem List.mem_insert_self, (inv.busy reqId request tracked signaled).2⟩
    · exact inv.busy other kept found signaled
  · exact inv.bounded.trans (Nat.le_succ _)

theorem fence_inv_enter (inv : JobInv books) (fences : FenceInv books)
    (tracked : books.requests reqId = some request) {job : TransferJobStatus}
    (named : job.reqId = reqId) :
    FenceInv (books.enter reqId request job (fencedOf job request.isFinished)) := by
  constructor
  · exact SetMap.no_empty_add_all _ _ fences.no_empty
  · intro blockId jobId
    have added : SetMap.Holds (books.enter reqId request job
        (fencedOf job request.isFinished)).fences blockId jobId ↔ _ :=
      SetMap.holds_add_all books.jobCounter _ books.fences blockId jobId
    rw [added, fences.exact]
    unfold Fenced
    rw [get_enter_job]
    by_cases same : jobId = books.jobCounter
    · rw [if_pos same]
      constructor
      · rintro (⟨old, owner, found, _, _⟩ | ⟨member, _⟩)
        · exact absurd same (Nat.ne_of_lt (inv.below jobId old found))
        · exact ⟨job, { request with
            transferJobs := request.transferJobs.insert books.jobCounter }, rfl,
            (enter_requests _ _ _).trans (if_pos named), member⟩
      · rintro ⟨entered, owner, same_job, ownerTracked, member⟩
        cases same_job
        rw [enter_requests, if_pos named] at ownerTracked
        cases ownerTracked
        exact .inr ⟨member, same⟩
    · rw [if_neg same]
      have flag : ∀ (old : TransferJobStatus) (owner : ReqBooks),
          books.requests old.reqId = some owner →
          ∃ now, (books.enter reqId request job (fencedOf job request.isFinished)).requests
            old.reqId = some now ∧ now.isFinished = owner.isFinished := by
        intro old owner ownerTracked
        rw [enter_requests]
        split
        · rename_i equal
          rw [equal] at ownerTracked
          cases ownerTracked.symm.trans tracked
          exact ⟨_, rfl, rfl⟩
        · exact ⟨owner, ownerTracked, rfl⟩
      constructor
      · rintro (⟨old, owner, found, ownerTracked, member⟩ | ⟨_, isNew⟩)
        · obtain ⟨now, nowTracked, same_flag⟩ := flag old owner ownerTracked
          exact ⟨old, now, found, nowTracked, same_flag ▸ member⟩
        · exact absurd isNew same
      · rintro ⟨old, now, found, nowTracked, member⟩
        obtain ⟨owner, ownerTracked, _⟩ := inv.owned jobId old found
        obtain ⟨again, againTracked, same_flag⟩ := flag old owner ownerTracked
        cases nowTracked.symm.trans againTracked
        exact .inl ⟨old, owner, found, ownerTracked, same_flag ▸ member⟩

end Entry

section Requests

variable {books : Desk M}

theorem with_request_requests (reqId other : ReqId) (request : Option ReqBooks) :
    (books.withRequest reqId request).requests other =
      if other = reqId then request else books.requests other :=
  Function.update_apply ..

/-- A request changes but not in its jobs. -/
theorem job_inv_change (inv : JobInv books) {reqId : ReqId} {request changed : ReqBooks}
    (tracked : books.requests reqId = some request)
    (jobs : changed.transferJobs = request.transferJobs)
    (busy : changed.finishedSignaled = true → changed.transferJobs ≠ [] ∧
      changed.isFinished = true) :
    JobInv (books.withRequest reqId (some changed)) := by
  refine ⟨inv.below, inv.live, ?_, ?_, ?_, ?_, inv.bounded⟩
  · intro jobId job found
    obtain ⟨owner, ownerTracked, member⟩ := inv.owned jobId job found
    rw [with_request_requests]
    split
    · rename_i same
      rw [same] at ownerTracked
      cases ownerTracked.symm.trans tracked
      exact ⟨changed, rfl, jobs ▸ member⟩
    · exact ⟨owner, ownerTracked, member⟩
  · intro other kept found jobId member
    rw [with_request_requests] at found
    split at found
    · rename_i same
      cases found
      rw [same]
      exact inv.listed reqId request tracked jobId (jobs ▸ member)
    · exact inv.listed other kept found jobId member
  · intro other kept found
    rw [with_request_requests] at found
    split at found
    · cases found
      exact jobs ▸ inv.distinct reqId request tracked
    · exact inv.distinct other kept found
  · intro other kept found
    rw [with_request_requests] at found
    split at found
    · cases found
      exact busy
    · exact inv.busy other kept found

/-- A request without jobs comes or goes. -/
theorem job_inv_replace (inv : JobInv books) {reqId : ReqId} {replaced : Option ReqBooks}
    (idle : ∀ request, books.requests reqId = some request → request.transferJobs = [])
    (empty : ∀ request, replaced = some request → request.transferJobs = [] ∧
      request.finishedSignaled = false) :
    JobInv (books.withRequest reqId replaced) := by
  refine ⟨inv.below, inv.live, ?_, ?_, ?_, ?_, inv.bounded⟩
  · intro jobId job found
    obtain ⟨owner, ownerTracked, member⟩ := inv.owned jobId job found
    have different : job.reqId ≠ reqId := by
      intro same
      rw [same] at ownerTracked
      rw [idle owner ownerTracked] at member
      cases member
    rw [with_request_requests, if_neg different]
    exact ⟨owner, ownerTracked, member⟩
  · intro other kept found jobId member
    rw [with_request_requests] at found
    split at found
    · rw [(empty kept found).1] at member
      cases member
    · exact inv.listed other kept found jobId member
  · intro other kept found
    rw [with_request_requests] at found
    split at found
    · rw [(empty kept found).1]
      exact List.nodup_nil
    · exact inv.distinct other kept found
  · intro other kept found signaled
    rw [with_request_requests] at found
    split at found
    · rw [(empty kept found).2] at signaled
      cases signaled
    · exact inv.busy other kept found signaled

/-- The fences stay exact while every job's request keeps its finished flag. -/
theorem fence_inv_same {after : Desk M} (inv : JobInv books) (fences : FenceInv books)
    (jobs : after.jobs = books.jobs) (same : after.fences = books.fences)
    (flag : ∀ reqId request, books.requests reqId = some request →
      request.transferJobs ≠ [] → ∃ now, after.requests reqId = some now ∧
        now.isFinished = request.isFinished) :
    FenceInv after := by
  constructor
  · rw [same]
    exact fences.no_empty
  · intro blockId jobId
    rw [same, fences.exact]
    unfold Fenced
    rw [jobs]
    constructor
    · rintro ⟨job, owner, found, ownerTracked, member⟩
      obtain ⟨listing, listingTracked, listed⟩ := inv.owned jobId job found
      cases ownerTracked.symm.trans listingTracked
      obtain ⟨now, nowTracked, same_flag⟩ :=
        flag _ owner ownerTracked (List.ne_nil_of_mem listed)
      exact ⟨job, now, found, nowTracked, same_flag ▸ member⟩
    · rintro ⟨job, now, found, nowTracked, member⟩
      obtain ⟨owner, ownerTracked, listed⟩ := inv.owned jobId job found
      obtain ⟨again, againTracked, same_flag⟩ :=
        flag _ owner ownerTracked (List.ne_nil_of_mem listed)
      cases nowTracked.symm.trans againTracked
      exact ⟨job, owner, found, ownerTracked, same_flag ▸ member⟩

end Requests

section Reports

variable {books : Desk M} {jobId : JobId} {job : TransferJobStatus} {request : ReqBooks}

/-- All of a job's fences are there, so only a block that occurs twice is missed. -/
theorem unfence_iff (fences : FenceInv books) (found : books.jobs.get? jobId = some job)
    (tracked : books.requests job.reqId = some request) :
    (∃ after, SetMap.removeAll jobId books.fences (fencedOf job request.isFinished) =
      some after) ↔ (fencedOf job request.isFinished).Nodup := by
  rw [SetMap.remove_all_is_some_iff]
  exact and_iff_left fun blockId member =>
    (fences.exact blockId jobId).mpr ⟨job, request, found, tracked, member⟩

theorem unfenced_of_empty (fences : FenceInv books) (empty : books.fences.entries = [])
    (found : books.jobs.get? jobId = some job)
    (tracked : books.requests job.reqId = some request) :
    fencedOf job request.isFinished = [] := by
  rw [List.eq_nil_iff_forall_not_mem]
  intro blockId member
  obtain ⟨items, present, _⟩ :=
    (fences.exact blockId jobId).mpr ⟨job, request, found, tracked, member⟩
  have inside := (OrderedMap.get_eq_some_iff _ _ _).mp present
  rw [empty] at inside
  cases inside

/-- A partly reported job keeps what the books say of it, its count apart. -/
theorem partly_keeps (inv : JobInv books) (fences : FenceInv books)
    (found : books.jobs.get? jobId = some job) (pendingCount : Int) :
    JobInv (books.withJob jobId { job with pendingCount := pendingCount }) ∧
      FenceInv (books.withJob jobId { job with pendingCount := pendingCount }) := by
  have changed : ∀ other now, (books.withJob jobId
      { job with pendingCount := pendingCount }).jobs.get? other = some now →
      ∃ old, books.jobs.get? other = some old ∧ old.reqId = now.reqId ∧
        ∀ flag, fencedOf old flag = fencedOf now flag := by
    intro other now present
    have present := (OrderedMap.get_set ..).symm.trans present
    split at present
    · rename_i same
      cases present
      exact ⟨job, same ▸ found, rfl, fun _ => rfl⟩
    · exact ⟨now, present, rfl, fun _ => rfl⟩
  have kept : ∀ other old, books.jobs.get? other = some old →
      ∃ now, (books.withJob jobId { job with pendingCount := pendingCount }).jobs.get? other =
        some now ∧ now.reqId = old.reqId ∧ ∀ flag, fencedOf now flag = fencedOf old flag := by
    intro other old present
    by_cases same : other = jobId
    · cases (same ▸ present).symm.trans found
      exact ⟨_, (OrderedMap.get_set ..).trans (if_pos same), rfl, fun _ => rfl⟩
    · exact ⟨old, (OrderedMap.get_set ..).trans ((if_neg same).trans present), rfl,
        fun _ => rfl⟩
  constructor
  · refine ⟨?_, ?_, ?_, ?_, inv.distinct, inv.busy, inv.bounded⟩
    · intro other now present
      obtain ⟨old, before, _, _⟩ := changed other now present
      exact inv.below other old before
    · intro other now present
      obtain ⟨old, before, _, _⟩ := changed other now present
      exact inv.live other old before
    · intro other now present
      obtain ⟨old, before, same, _⟩ := changed other now present
      exact same ▸ inv.owned other old before
    · intro reqId owner tracked other member
      obtain ⟨old, before, same⟩ := inv.listed reqId owner tracked other member
      obtain ⟨now, present, sameNow, _⟩ := kept other old before
      exact ⟨now, present, sameNow.trans same⟩
  · refine ⟨fences.no_empty, fun blockId other => (fences.exact blockId other).trans ?_⟩
    constructor
    · rintro ⟨old, owner, before, tracked, member⟩
      obtain ⟨now, present, same, fenced⟩ := kept other old before
      exact ⟨now, owner, present, same.symm ▸ tracked, (fenced _).symm ▸ member⟩
    · rintro ⟨now, owner, present, tracked, member⟩
      obtain ⟨old, before, same, fenced⟩ := changed other now present
      exact ⟨old, owner, before, same.symm ▸ tracked, (fenced _).symm ▸ member⟩

theorem get_drop_job (other : JobId) :
    (books.dropJob jobId).jobs.get? other =
      if other = jobId then none else books.jobs.get? other :=
  OrderedMap.get_erase ..

theorem get_dropped {other : JobId} {found : TransferJobStatus}
    (present : (books.dropJob jobId).jobs.get? other = some found) :
    other ≠ jobId ∧ books.jobs.get? other = some found := by
  rw [get_drop_job] at present
  split at present
  · cases present
  · rename_i different
    exact ⟨different, present⟩

theorem remaining_some {kept : ReqBooks} (remains : Desk.remaining request jobId = some kept) :
    kept.transferJobs = request.transferJobs.erase jobId ∧
      kept.isFinished = request.isFinished ∧ kept.finishedSignaled = request.finishedSignaled ∧
      (kept.finishedSignaled = true → kept.transferJobs ≠ []) := by
  unfold Desk.remaining at remains
  dsimp only at remains
  split at remains
  · cases remains
  · rename_i stays
    cases remains
    exact ⟨rfl, rfl, rfl, fun signaled empty => stays ⟨signaled, empty⟩⟩

/-- A request with another job stays. -/
theorem remaining_of_other {other : JobId} (member : other ∈ request.transferJobs)
    (different : other ≠ jobId) :
    Desk.remaining request jobId =
      some { request with transferJobs := request.transferJobs.erase jobId } :=
  if_neg fun leaves =>
    List.ne_nil_of_mem ((List.mem_erase_of_ne different).mpr member) leaves.2

theorem job_inv_drop (inv : JobInv books) (found : books.jobs.get? jobId = some job)
    (tracked : books.requests job.reqId = some request) :
    JobInv ((books.dropJob jobId).withRequest job.reqId (Desk.remaining request jobId)) := by
  have distinct := inv.distinct _ request tracked
  refine ⟨?_, ?_, ?_, ?_, ?_, ?_, inv.bounded⟩
  · intro other kept present
    exact inv.below other kept (get_dropped present).2
  · intro other kept present
    exact inv.live other kept (get_dropped present).2
  · intro other kept present
    obtain ⟨different, present⟩ := get_dropped present
    obtain ⟨owner, ownerTracked, member⟩ := inv.owned other kept present
    rw [with_request_requests]
    split
    · rename_i same
      cases (same ▸ ownerTracked).symm.trans tracked
      exact ⟨_, remaining_of_other member different, (List.mem_erase_of_ne different).mpr member⟩
    · exact ⟨owner, ownerTracked, member⟩
  · intro reqId kept keptTracked other member
    rw [with_request_requests] at keptTracked
    split at keptTracked
    · rename_i same
      rw [(remaining_some keptTracked).1] at member
      obtain ⟨different, inList⟩ := distinct.mem_erase_iff.mp member
      obtain ⟨listed, present, owner⟩ := inv.listed _ request tracked other inList
      exact ⟨listed, (get_drop_job other).trans ((if_neg different).trans present),
        owner.trans same.symm⟩
    · rename_i apart
      obtain ⟨listed, present, owner⟩ := inv.listed reqId kept keptTracked other member
      have different : other ≠ jobId := by
        rintro rfl
        cases present.symm.trans found
        exact apart owner.symm
      exact ⟨listed, (get_drop_job other).trans ((if_neg different).trans present), owner⟩
  · intro reqId kept keptTracked
    rw [with_request_requests] at keptTracked
    split at keptTracked
    · rw [(remaining_some keptTracked).1]
      exact distinct.erase jobId
    · exact inv.distinct reqId kept keptTracked
  · intro reqId kept keptTracked signaled
    rw [with_request_requests] at keptTracked
    split at keptTracked
    · obtain ⟨_, finished, signal, busy⟩ := remaining_some keptTracked
      exact ⟨busy signaled, finished.trans
        (inv.busy _ request tracked (signal.symm.trans signaled)).2⟩
    · exact inv.busy reqId kept keptTracked signaled

/-- Without the job's fences, the fences of the others are left. -/
theorem fence_inv_drop (inv : JobInv books) (fences : FenceInv books)
    (found : books.jobs.get? jobId = some job)
    (tracked : books.requests job.reqId = some request)
    {left : OrderedMap Nat (Finset JobId)}
    (unfenced : books.fences.entries = [] ∧ left = books.fences ∨
      SetMap.removeAll jobId books.fences (fencedOf job request.isFinished) = some left) :
    FenceInv (((books.withFences left).dropJob jobId).withRequest job.reqId
      (Desk.remaining request jobId)) := by
  have holds : ∀ blockId other, SetMap.Holds left blockId other ↔
      Fenced books blockId other ∧ other ≠ jobId := by
    intro blockId other
    have own : Fenced books blockId jobId ↔ blockId ∈ fencedOf job request.isFinished := by
      constructor
      · rintro ⟨again, owner, present, ownerTracked, member⟩
        cases present.symm.trans found
        cases ownerTracked.symm.trans tracked
        exact member
      · exact fun member => ⟨job, request, found, tracked, member⟩
    rcases unfenced with ⟨empty, same⟩ | removed
    · rw [same, fences.exact]
      refine (and_iff_left_of_imp ?_).symm
      rintro waits rfl
      rw [own, unfenced_of_empty fences empty found tracked] at waits
      cases waits
    · rw [SetMap.holds_remove_all removed, fences.exact, and_congr_right_iff]
      intro waits
      rw [not_and]
      constructor
      · intro none same
        exact none (own.mp (same ▸ waits)) same
      · exact fun different _ => different
  constructor
  · rcases unfenced with ⟨_, same⟩ | removed
    · rw [show (((books.withFences left).dropJob jobId).withRequest job.reqId
        (Desk.remaining request jobId)).fences = left from rfl, same]
      exact fences.no_empty
    · exact SetMap.no_empty_remove_all removed fences.no_empty
  · intro blockId other
    refine (holds blockId other).trans ?_
    have requests : ∀ reqId, (((books.withFences left).dropJob jobId).withRequest job.reqId
        (Desk.remaining request jobId)).requests reqId =
        if reqId = job.reqId then Desk.remaining request jobId else books.requests reqId :=
      fun reqId => with_request_requests job.reqId reqId _
    constructor
    · rintro ⟨⟨kept, owner, present, ownerTracked, member⟩, different⟩
      have stays : (((books.withFences left).dropJob jobId).withRequest job.reqId
          (Desk.remaining request jobId)).jobs.get? other = some kept :=
        (get_drop_job other).trans ((if_neg different).trans present)
      by_cases same : kept.reqId = job.reqId
      · cases (same ▸ ownerTracked).symm.trans tracked
        obtain ⟨again, againTracked, inList⟩ := inv.owned other kept present
        cases againTracked.symm.trans ownerTracked
        exact ⟨kept, _, stays, (requests _).trans ((if_pos same).trans
          (remaining_of_other inList different)), member⟩
      · exact ⟨kept, owner, stays, (requests _).trans ((if_neg same).trans ownerTracked), member⟩
    · rintro ⟨kept, now, present, nowTracked, member⟩
      obtain ⟨different, present⟩ := get_dropped present
      have nowTracked := (requests _).symm.trans nowTracked
      refine ⟨?_, different⟩
      split at nowTracked
      · rename_i same
        exact ⟨kept, request, present, same ▸ tracked,
          (remaining_some nowTracked).2.1 ▸ member⟩
      · exact ⟨kept, now, present, nowTracked, member⟩

end Reports

section Moves

variable [OffloadingManager M] {lax : Prop} {before after : Desk M}

theorem move_keeps (move : Move lax before after) (jobs : JobInv before)
    (fences : FenceInv before) : JobInv after ∧ FenceInv after := by
  cases move with
  | looked _ _ _ => exact ⟨job_inv_with_manager jobs _, fence_inv_with_manager fences _⟩
  | touched _ => exact ⟨job_inv_with_manager jobs _, fence_inv_with_manager fences _⟩
  | @loadIssued reqId request keys _ manager tracked _ _ _ =>
      have moved := job_inv_with_manager jobs manager
      constructor
      · apply job_inv_enter moved
        · exact tracked
        · rfl
      · have entered := @fence_inv_enter M _ reqId request moved
          (fence_inv_with_manager fences manager) tracked
          { reqId := reqId
            pendingCount := before.numWorkers
            keys := keys.dedup
            isStore := false } rfl
        rw [fences_nothing rfl rfl] at entered
        exact entered
  | storeDeclined _ _ _ _ => exact ⟨job_inv_with_manager jobs _, fence_inv_with_manager fences _⟩
  | storeIssued tracked _ _ _ =>
      constructor
      · apply job_inv_enter (job_inv_with_manager jobs _)
        · exact tracked
        · rfl
      · apply fence_inv_enter (job_inv_with_manager jobs _) (fence_inv_with_manager fences _)
        · exact tracked
        · rfl
  | scheduleEnded _ => exact ⟨job_inv_with_manager jobs _, fence_inv_with_manager fences _⟩
  | drained => exact ⟨job_inv_with_manager jobs _, fence_inv_with_manager fences _⟩

theorem moves_keep (moves : Moves lax before after) (jobs : JobInv before)
    (fences : FenceInv before) : JobInv after ∧ FenceInv after := by
  induction moves with
  | refl => exact ⟨jobs, fences⟩
  | tail _ move ih => exact move_keeps move ih.1 ih.2

theorem signal_keeps (signal : Signal lax before after) (jobs : JobInv before)
    (fences : FenceInv before) : JobInv after ∧ FenceInv after := by
  cases signal with
  | @signaled reqId request manager tracked _ ended _ =>
      have moved := job_inv_with_manager jobs manager
      by_cases idle : request.transferJobs = []
      · have gone : Desk.signaled request = none := if_pos idle
        rw [gone]
        have only : ∀ other, before.requests reqId = some other → other.transferJobs = [] := by
          intro other found
          cases found.symm.trans tracked
          exact idle
        refine ⟨job_inv_replace moved only nofun, ?_⟩
        apply fence_inv_same jobs fences
        · rfl
        · rfl
        · intro other owner found busy
          refine ⟨owner, (with_request_requests _ _ _).trans ((if_neg ?_).trans found), rfl⟩
          rintro rfl
          exact busy (only owner found)
      · have kept : Desk.signaled request = some { request with finishedSignaled := true } :=
          if_neg idle
        rw [kept]
        constructor
        · apply job_inv_change moved
          · exact tracked
          · rfl
          · exact fun _ => ⟨idle, ended⟩
        · apply fence_inv_same jobs fences
          · rfl
          · rfl
          · intro other owner found _
            by_cases same : other = reqId
            · cases (same ▸ found).symm.trans tracked
              exact ⟨_, (with_request_requests _ _ _).trans (if_pos same), rfl⟩
            · exact ⟨owner, (with_request_requests _ _ _).trans ((if_neg same).trans found), rfl⟩

theorem signals_keep (signals : Signals lax before after) (jobs : JobInv before)
    (fences : FenceInv before) : JobInv after ∧ FenceInv after := by
  induction signals with
  | refl => exact ⟨jobs, fences⟩
  | tail _ signal ih => exact signal_keeps signal ih.1 ih.2

/-- What `fenceAll` adds. -/
theorem holds_fence_all (jobs : List (JobId × TransferJobStatus))
    (fences : OrderedMap Nat (Finset JobId)) (blockId : Nat) (jobId : JobId) :
    SetMap.Holds (fenceAll jobs fences) blockId jobId ↔ SetMap.Holds fences blockId jobId ∨
      ∃ entry ∈ jobs, entry.1 = jobId ∧ blockId ∈ entry.2.deferredFenceBlockIds := by
  induction jobs generalizing fences with
  | nil => simp [fenceAll]
  | cons entry rest ih =>
      have step := ih (SetMap.addAll entry.1 fences entry.2.deferredFenceBlockIds)
      have unfolded : fenceAll (entry :: rest) fences =
        fenceAll rest (SetMap.addAll entry.1 fences entry.2.deferredFenceBlockIds) := rfl
      rw [unfolded, step, SetMap.holds_add_all, List.exists_mem_cons_iff, or_assoc]
      apply or_congr_right
      apply or_congr_left
      rw [and_comm, eq_comm]

theorem no_empty_fence_all (jobs : List (JobId × TransferJobStatus))
    {fences : OrderedMap Nat (Finset JobId)} (kept : SetMap.NoEmpty fences) :
    SetMap.NoEmpty (fenceAll jobs fences) := by
  induction jobs generalizing fences with
  | nil => exact kept
  | cons entry rest ih => exact ih (SetMap.no_empty_add_all _ _ kept)

omit [OffloadingManager M] in
/-- The finish of a request: its other blocks begin to wait. -/
theorem finish_keeps {books : Desk M} (inv : JobInv books) (fences : FenceInv books)
    {reqId : ReqId} {request : ReqBooks} (tracked : books.requests reqId = some request)
    {jobs : List (JobId × TransferJobStatus)} (listed : jobs.map Prod.fst = request.transferJobs)
    (found : ∀ entry ∈ jobs, books.jobs.get? entry.1 = some entry.2) :
    FenceInv ((books.withRequest reqId (some { request with isFinished := true })).withFences
      (fenceAll jobs books.fences)) := by
  have requests : ∀ other, ((books.withRequest reqId
      (some { request with isFinished := true })).withFences
        (fenceAll jobs books.fences)).requests other =
      if other = reqId then some { request with isFinished := true }
      else books.requests other := fun other => with_request_requests reqId other _
  constructor
  · exact no_empty_fence_all jobs fences.no_empty
  · intro blockId jobId
    refine (holds_fence_all jobs books.fences blockId jobId).trans ?_
    rw [fences.exact]
    constructor
    · rintro (⟨job, owner, present, ownerTracked, member⟩ | ⟨entry, inJobs, rfl, member⟩)
      · by_cases same : job.reqId = reqId
        · refine ⟨job, _, present, (requests _).trans (if_pos same), ?_⟩
          exact List.mem_append.mpr ((List.mem_append.mp member).imp_right fun deferred => by
            split at deferred
            · exact deferred
            · cases deferred)
        · exact ⟨job, owner, present, (requests _).trans ((if_neg same).trans ownerTracked),
            member⟩
      · have inList : entry.1 ∈ request.transferJobs := listed ▸ List.mem_map_of_mem inJobs
        obtain ⟨job, present, owner⟩ := inv.listed reqId request tracked entry.1 inList
        cases present.symm.trans (found entry inJobs)
        exact ⟨_, _, present, (requests _).trans (if_pos owner),
          List.mem_append_right _ member⟩
    · rintro ⟨job, now, present, nowTracked, member⟩
      have nowTracked := (requests _).symm.trans nowTracked
      split at nowTracked
      · rename_i same
        cases nowTracked
        rcases List.mem_append.mp member with window | deferred
        · obtain ⟨owner, ownerTracked, _⟩ := inv.owned jobId job present
          exact .inl ⟨job, owner, present, ownerTracked, List.mem_append_left _ window⟩
        · obtain ⟨owner, ownerTracked, inList⟩ := inv.owned jobId job present
          cases (same ▸ ownerTracked).symm.trans tracked
          rw [← listed] at inList
          obtain ⟨entry, inJobs, rfl⟩ := List.mem_map.mp inList
          cases present.symm.trans (found entry inJobs)
          exact .inr ⟨entry, inJobs, rfl, deferred⟩
      · exact .inl ⟨job, now, present, nowTracked, member⟩

theorem admit_keeps {reqId : ReqId} (admits : Admit reqId before after) (jobs : JobInv before)
    (fences : FenceInv before) : JobInv after ∧ FenceInv after := by
  cases admits with
  | @opened _ reqContext isFinished fresh =>
      have moved := job_inv_with_manager jobs
        (OffloadingManager.onNewRequest before.manager reqContext).2
      have untracked : ∀ request, before.requests reqContext.reqId = some request →
          request.transferJobs = [] := by
        intro request found
        cases fresh.symm.trans found
      constructor
      · apply job_inv_replace moved
        · exact untracked
        · rintro request ⟨⟩
          exact ⟨rfl, rfl⟩
      · apply fence_inv_same jobs fences
        · rfl
        · rfl
        · intro other owner found busy
          refine ⟨owner, (with_request_requests _ _ _).trans ((if_neg ?_).trans found), rfl⟩
          rintro rfl
          exact busy (untracked owner found)
  | passed _ _ => exact ⟨job_inv_with_manager jobs _, fence_inv_with_manager fences _⟩
  | @finished _ _ request entries tracked listed found =>
      constructor
      · have changed := @job_inv_change M before jobs reqId request
          { request with isFinished := true } tracked rfl
          (fun signaled => ⟨(jobs.busy reqId request tracked signaled).1, rfl⟩)
        exact ⟨changed.below, changed.live, changed.owned, changed.listed, changed.distinct,
          changed.busy, changed.bounded⟩
      · exact finish_keeps jobs fences tracked listed found

theorem report_keeps {jobId : JobId} {count : Int} (report : Report jobId count before after)
    (jobs : JobInv before) (fences : FenceInv before) : JobInv after ∧ FenceInv after := by
  cases report with
  | stale _ => exact ⟨jobs, fences⟩
  | partly _ found _ => exact partly_keeps jobs fences found _
  | fully _ found _ tracked _ _ unfenced =>
      constructor
      · have dropped := job_inv_drop jobs found tracked
        exact ⟨dropped.below, dropped.live, dropped.owned, dropped.listed, dropped.distinct,
          dropped.busy, dropped.bounded⟩
      · have dropped := fence_inv_drop jobs fences found tracked unfenced
        exact ⟨dropped.no_empty, dropped.exact⟩

theorem reset_keeps (reset : Reset before after) (jobs : JobInv before) :
    JobInv after ∧ FenceInv after := by
  cases reset with
  | reset _ _ _ _ =>
      have cleared : ∀ reqId request, before.reset.requests reqId = some request →
          request.transferJobs = [] ∧ request.finishedSignaled = false := by
        intro reqId request found
        obtain ⟨earlier, tracked, kept⟩ := Option.bind_eq_some_iff.mp found
        split at kept
        · cases kept
        · rename_i active
          cases kept
          refine ⟨rfl, ?_⟩
          by_contra signaled
          exact active (jobs.busy reqId earlier tracked (by simpa using signaled)).2
      constructor
      · refine ⟨nofun, nofun, nofun, ?_, ?_, ?_, le_rfl⟩
        · intro reqId request found jobId member
          rw [(cleared reqId request found).1] at member
          cases member
        · intro reqId request found
          rw [(cleared reqId request found).1]
          exact List.nodup_nil
        · intro reqId request found signaled
          rw [(cleared reqId request found).2] at signaled
          cases signaled
      · constructor
        · exact SetMap.no_empty_empty
        · intro blockId jobId
          constructor
          · exact fun holds => absurd holds (SetMap.not_holds_empty blockId jobId)
          · rintro ⟨job, _, found, _⟩
            cases found

end Moves

end KvOffload.JobInvariants
