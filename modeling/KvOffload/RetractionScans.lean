import KvOffload.Tiering

/-!
# What the retraction scans may retract

A poll consumes the reports of the tiers and then scans for promotions and for store
reservations that are past their deadlines. The ids that wait to be drained are those that
waited before, those of promotions past their time, and the batches of overdue reservations.
-/

namespace KvOffload.RetractionScans

open KvOffload KvOffload.Base KvOffload.PolicyInterface KvOffload.CpuManager KvOffload.Tiering

set_option autoImplicit false

variable {P : Type}

/-- The id waits to be drained, or one of the clock readings before `last` finds its promotion or
a reservation of its batch past the deadline. -/
def Due (manager : TieringOffloadingManager P) (last : Nat) (jobId : JobId) : Prop :=
  jobId ∈ manager.retractedJobIds ∨ ∃ index, manager.answered ≤ index ∧ index < last ∧
    ((∃ key reqContext deadline,
        manager.storePendingOwner.get? key = some (reqContext, jobId) ∧
        manager.storePendingDeadline.get? key = some deadline ∧
        deadline < (manager.answers index).now) ∨
      ∃ job, manager.jobs.get? jobId = some job ∧
        manager.promotionExpired (manager.answers index).now jobId job = true)

/-- No tier ever reports the id. -/
def Unreported (answers : Nat → TierAnswer) (jobId : JobId) : Prop :=
  ∀ index, ∀ result ∈ (answers index).finished, result.jobId ≠ jobId

/-- What a call leaves of the armed reservations and the retracted ids. -/
structure Tracks (manager after : TieringOffloadingManager P) : Prop where
  answers : after.answers = manager.answers
  enabled : after.storePendingTtlSecs = manager.storePendingTtlSecs
  answered : manager.answered ≤ after.answered
  owners : ∀ key owner, after.storePendingOwner.get? key = some owner →
    manager.storePendingOwner.get? key = some owner
  kept : ∀ jobId ∈ manager.retractedJobIds, Unreported manager.answers jobId →
    jobId ∈ after.retractedJobIds
  gained : ∀ jobId ∈ after.retractedJobIds, Due manager after.answered jobId

/-- Besides, the call registers no promotion. -/
structure Scans (manager after : TieringOffloadingManager P) : Prop
    extends Tracks manager after where
  ttl : after.promotionTtlSecs = manager.promotionTtlSecs
  deadlines : ∀ key deadline, after.storePendingDeadline.get? key = some deadline →
    manager.storePendingDeadline.get? key = some deadline
  promotions : ∀ jobId job, after.jobs.get? jobId = some job →
    job.transferJob.isPromotion = true → manager.jobs.get? jobId = some job ∧
      after.jobStartedAt.get? jobId = manager.jobStartedAt.get? jobId

/-- The call touches nothing that a scan reads. -/
structure SamePends (manager after : TieringOffloadingManager P) : Prop where
  answers : after.answers = manager.answers
  enabled : after.storePendingTtlSecs = manager.storePendingTtlSecs
  answered : manager.answered ≤ after.answered
  ttl : after.promotionTtlSecs = manager.promotionTtlSecs
  owners : after.storePendingOwner = manager.storePendingOwner
  deadlines : after.storePendingDeadline = manager.storePendingDeadline
  retracted : after.retractedJobIds = manager.retractedJobIds
  jobs : after.jobs = manager.jobs
  started : after.jobStartedAt = manager.jobStartedAt

section Relations

variable {manager middle after : TieringOffloadingManager P}

theorem due_mono {last later : Nat} {jobId : JobId} (le : last ≤ later)
    (due : Due manager last jobId) : Due manager later jobId := by
  refine due.imp_right ?_
  rintro ⟨index, from_, before, overdue⟩
  exact ⟨index, from_, before.trans_le le, overdue⟩

theorem promotion_expired_iff {now : Rat} {jobId : JobId} {job : JobMetadata} :
    manager.promotionExpired now jobId job = true ↔ job.transferJob.isPromotion = true ∧
      ∃ started, manager.jobStartedAt.get? jobId = some started ∧
        manager.promotionTtlSecs < now - started := by
  unfold TieringOffloadingManager.promotionExpired
  rw [Bool.and_eq_true]
  refine and_congr_right fun _ => ?_
  cases manager.jobStartedAt.get? jobId with
  | none => simp
  | some started => simp

theorem due_of_scans (scans : Scans manager middle) {last : Nat} {jobId : JobId}
    (le : middle.answered ≤ last) (due : Due middle last jobId) : Due manager last jobId := by
  rcases due with waits | ⟨index, from_, before, overdue⟩
  · exact due_mono le (scans.gained jobId waits)
  · refine .inr ⟨index, scans.answered.trans from_, before, ?_⟩
    rw [scans.answers] at overdue
    rcases overdue with ⟨key, reqContext, deadline, owner, armed, past⟩ | ⟨job, found, expired⟩
    · exact .inl ⟨key, reqContext, deadline, scans.owners _ _ owner, scans.deadlines _ _ armed,
        past⟩
    · obtain ⟨isPromotion, started, isStarted, past⟩ := promotion_expired_iff.mp expired
      obtain ⟨foundBefore, same⟩ := scans.promotions jobId job found isPromotion
      refine .inr ⟨job, foundBefore, promotion_expired_iff.mpr ⟨isPromotion, started, ?_, ?_⟩⟩
      · rw [← same]
        exact isStarted
      · rw [← scans.ttl]
        exact past

theorem tracks_trans (first : Scans manager middle) (second : Tracks middle after) :
    Tracks manager after where
  answers := second.answers.trans first.answers
  enabled := second.enabled.trans first.enabled
  answered := first.answered.trans second.answered
  owners key owner found := first.owners key owner (second.owners key owner found)
  kept jobId waits unreported :=
    second.kept jobId (first.kept jobId waits unreported) (first.answers ▸ unreported)
  gained jobId waits := due_of_scans first second.answered (second.gained jobId waits)

theorem scans_trans (first : Scans manager middle) (second : Scans middle after) :
    Scans manager after where
  toTracks := tracks_trans first second.toTracks
  ttl := second.ttl.trans first.ttl
  deadlines key deadline armed := first.deadlines key deadline (second.deadlines key deadline armed)
  promotions jobId job found isPromotion := by
    obtain ⟨foundMiddle, same⟩ := second.promotions jobId job found isPromotion
    obtain ⟨foundFirst, sameFirst⟩ := first.promotions jobId job foundMiddle isPromotion
    exact ⟨foundFirst, same.trans sameFirst⟩

theorem scans_of_same (same : SamePends manager after) : Scans manager after where
  answers := same.answers
  enabled := same.enabled
  answered := same.answered
  owners key owner found := same.owners ▸ found
  kept jobId waits _ := same.retracted ▸ waits
  gained jobId waits := .inl (same.retracted ▸ waits)
  ttl := same.ttl
  deadlines key deadline armed := same.deadlines ▸ armed
  promotions jobId job found _ := ⟨same.jobs ▸ found, congrArg (fun map => map.get? jobId) same.started⟩

theorem scans_refl (manager : TieringOffloadingManager P) : Scans manager manager :=
  scans_of_same ⟨rfl, rfl, le_rfl, rfl, rfl, rfl, rfl, rfl, rfl⟩

theorem next_scans (manager : TieringOffloadingManager P) : Scans manager manager.next :=
  scans_of_same ⟨rfl, rfl, Nat.le_succ _, rfl, rfl, rfl, rfl, rfl, rfl⟩

theorem primary_scans (manager : TieringOffloadingManager P) (primary : CPUOffloadingManager P) :
    Scans manager (manager.withPrimary primary) :=
  scans_of_same ⟨rfl, rfl, le_rfl, rfl, rfl, rfl, rfl, rfl, rfl⟩

theorem call_scans (manager : TieringOffloadingManager P) (tierIdx : Nat) (tierCall : TierCall) :
    Scans manager (manager.call tierIdx tierCall) :=
  scans_of_same ⟨rfl, rfl, le_rfl, rfl, rfl, rfl, rfl, rfl, rfl⟩

theorem call_all_scans (manager : TieringOffloadingManager P) (tierCall : TierCall) :
    Scans manager (manager.callAll tierCall) := by
  unfold TieringOffloadingManager.callAll
  induction List.range manager.secondaryTiers.length generalizing manager with
  | nil => exact scans_refl manager
  | cons tierIdx rest ih => exact scans_trans (call_scans manager tierIdx tierCall) (ih _)

theorem set_request_scans (manager : TieringOffloadingManager P) (reqId : ReqId)
    (state : RequestState) : Scans manager (manager.setRequest reqId state) :=
  scans_of_same ⟨rfl, rfl, le_rfl, rfl, rfl, rfl, rfl, rfl, rfl⟩

theorem set_processed_scans (manager : TieringOffloadingManager P) (processed : Bool) :
    Scans manager (manager.setProcessed processed) :=
  scans_of_same ⟨rfl, rfl, le_rfl, rfl, rfl, rfl, rfl, rfl, rfl⟩

theorem suppress_scans (manager : TieringOffloadingManager P) (keys : List OffloadKey) :
    Scans manager (manager.suppressPromotionFailures keys) := by
  unfold TieringOffloadingManager.suppressPromotionFailures
  split
  · exact scans_refl manager
  · exact scans_of_same ⟨rfl, rfl, Nat.le_succ _, rfl, rfl, rfl, rfl, rfl, rfl⟩

/-- A job leaves. -/
theorem pop_job_scans (manager : TieringOffloadingManager P) (jobId : JobId) :
    Scans manager (manager.popJob jobId) where
  answers := rfl
  enabled := rfl
  answered := le_rfl
  owners _ _ found := found
  kept _ waits _ := waits
  gained _ waits := .inl waits
  ttl := rfl
  deadlines _ _ armed := armed
  promotions other job found _ := by
    change (manager.jobs.erase jobId).get? other = some job at found
    show manager.jobs.get? other = some job ∧ (manager.jobStartedAt.erase jobId).get? other = _
    rw [OrderedMap.get_erase] at found ⊢
    split at found
    · cases found
    · rename_i apart
      exact ⟨found, if_neg apart⟩

/-- A job that is no promotion is registered. -/
theorem register_scans (manager : TieringOffloadingManager P) {job : TransferJob} (tierIdx : Nat)
    (noPromotion : job.isPromotion = false) : Scans manager (manager.registerJob job tierIdx) where
  answers := rfl
  enabled := rfl
  answered := Nat.le_succ _
  owners _ _ found := found
  kept _ waits _ := waits
  gained _ waits := .inl waits
  ttl := rfl
  deadlines _ _ armed := armed
  promotions other entry found isPromotion := by
    change (manager.jobs.set job.jobId ⟨job, tierIdx⟩).get? other = some entry at found
    show _ ∧ (manager.jobStartedAt.set job.jobId manager.answer.now).get? other = _
    rw [OrderedMap.get_set] at found ⊢
    split at found
    · cases found
      rw [noPromotion] at isPromotion
      cases isPromotion
    · rename_i apart
      exact ⟨found, if_neg apart⟩

end Relations

section Polling

variable [CachePolicy P] {manager after : TieringOffloadingManager P}

theorem complete_write_scans {keys : List OffloadKey} {success : Bool}
    (completed : manager.completeWrite keys success = .ok after) : Scans manager after := by
  obtain ⟨primary, _, same⟩ := bind_eq_ok.mp completed
  cases same
  exact primary_scans manager primary

theorem complete_promotion_scans {job : TransferJob} {result : JobResult}
    (completed : manager.completePromotion job result = .ok after) : Scans manager after := by
  obtain ⟨⟨stored, failed⟩, _, completed⟩ := bind_eq_ok.mp completed
  obtain ⟨first, storedOk, completed⟩ := bind_eq_ok.mp completed
  obtain ⟨second, failedOk, completed⟩ := bind_eq_ok.mp completed
  have written : Scans manager second :=
    scans_trans (complete_write_scans storedOk) (complete_write_scans failedOk)
  have noted : Scans second ((second.forgetPromotionFailures stored).fillLedger
      (TieringOffloadingManager.reservationsOf job stored)) :=
    scans_of_same ⟨rfl, rfl, le_rfl, rfl, rfl, rfl, rfl, rfl, rfl⟩
  dsimp only at completed
  split at completed
  · cases completed
    exact scans_trans written noted
  · cases completed
    exact scans_trans written (scans_trans noted (suppress_scans _ _))

theorem consume_result_scans {tierIdx index : Nat} {result : JobResult}
    (reported : result ∈ (manager.answers index).finished)
    (consumed : manager.consumeResult tierIdx result = .ok after) : Scans manager after := by
  unfold TieringOffloadingManager.consumeResult at consumed
  split at consumed
  · cases consumed
    refine ⟨⟨rfl, rfl, le_rfl, fun _ _ => id, fun jobId waits unreported => ?_,
      fun jobId waits => .inl (Finset.mem_of_mem_erase waits)⟩, rfl, fun _ _ => id,
      fun _ _ found _ => ⟨found, rfl⟩⟩
    exact Finset.mem_erase.mpr ⟨Ne.symm (unreported index result reported), waits⟩
  · cases found : manager.jobs.get? result.jobId with
    | none => simp [found] at consumed
    | some job =>
        simp only [found] at consumed
        obtain ⟨_, _, consumed⟩ := bind_eq_ok.mp consumed
        apply scans_trans (pop_job_scans manager result.jobId)
        split at consumed
        · exact complete_promotion_scans consumed
        · obtain ⟨primary, _, same⟩ := bind_eq_ok.mp consumed
          cases same
          exact primary_scans _ primary

theorem consume_results_scans (results : List JobResult) {tierIdx index : Nat}
    {manager : TieringOffloadingManager P}
    (reported : ∀ result ∈ results, result ∈ (manager.answers index).finished)
    (consumed : manager.consumeResults tierIdx results = .ok after) : Scans manager after := by
  induction results generalizing manager with
  | nil =>
      cases consumed
      exact scans_refl _
  | cons result rest ih =>
      obtain ⟨middle, first, later⟩ := bind_eq_ok.mp consumed
      have head := consume_result_scans (reported result List.mem_cons_self) first
      refine scans_trans head (ih (fun other member => ?_) later)
      rw [head.answers]
      exact reported other (List.mem_cons_of_mem _ member)

theorem poll_tiers_scans (tiers : List Nat) {manager : TieringOffloadingManager P}
    (polled : manager.pollTiers tiers = .ok after) : Scans manager after := by
  induction tiers generalizing manager with
  | nil =>
      cases polled
      exact scans_refl _
  | cons tierIdx rest ih =>
      obtain ⟨middle, first, later⟩ := bind_eq_ok.mp polled
      have consumed : Scans manager.next middle :=
        consume_results_scans _ (fun _ member => by exact member) first
      exact scans_trans (next_scans manager) (scans_trans consumed (ih later))

/-- Retracting ids that are due. -/
structure Retracts (manager after : TieringOffloadingManager P) (jobIds : List JobId) : Prop where
  scans : (∀ jobId ∈ jobIds, Due manager after.answered jobId) → Scans manager after

theorem retract_promotion_retracts {jobId : JobId}
    (retracted : manager.retractPromotion jobId = .ok after) {last : Nat}
    (le : after.answered ≤ last) : True := trivial

end Polling

end KvOffload.RetractionScans
