import KvOffload.EngineOutputs
import KvOffload.EngineMoves
import KvOffload.EngineAccounts

/-!
# Ends of requests as moves

A request that ends is reported to the connector and released, at once or once its blocks may go.
Requests are ended on demand, by the tokens of a step, or by a block that cannot be loaded.
-/

namespace KvOffload.EngineReturns

open KvOffload KvOffload.Base KvOffload.EngineState KvOffload.EngineScheduling
open KvOffload.EngineOutputs KvOffload.EnginePlaces KvOffload.EngineDesk KvOffload.EngineMoves
open KvOffload.EngineAccounts KvOffload.FallibleChains

set_option autoImplicit false

variable {Q : Type} {engine : Engine Q} {request : Request}
  {running waiting skipped : Multiset ReqId} {streaming : Int} {flight : List InFlight}

/-- The desk with its places given beside. -/
def placed (engine : Engine Q) (running waiting skipped : Multiset ReqId) (streaming : Int)
    (flight : List InFlight) : Desk :=
  (deskOf engine running waiting skipped flight).place running waiting skipped streaming

/-- What the end of a request leaves of the engine. -/
structure Released (before after : Engine Q) (reqId : ReqId) : Prop where
  config : after.config = before.config
  running : after.running = before.running
  waiting : after.waiting = before.waiting
  skippedWaiting : after.skippedWaiting = before.skippedWaiting
  streaming : after.numWaitingForStreamingInput = before.numWaitingForStreamingInput
  others : ∀ other, other ≠ reqId → after.requests.get? other = before.requests.get? other

theorem free_blocks_moves (found : engine.requests.get? request.requestId = some request)
    (ended : request.isFinished = true) :
    ∃ after, freeBlocks engine request = .ok after ∧ Released engine after request.requestId ∧
      Moves (placed engine running waiting skipped streaming flight)
        (placed after running waiting skipped streaming flight) := by
  obtain ⟨calls, deferred, same, moves⟩ := @free_request_blocks_moves _ engine running waiting
    skipped flight request streaming found
  unfold freeBlocks
  rw [if_pos ended]
  refine ⟨_, rfl, ?_, ?_⟩
  · rw [same]
    exact ⟨rfl, rfl, rfl, rfl, rfl, fun other differs => OrderedMap.get_erase_of_ne _ differs⟩
  · have kept : (placed (engine.freeRequestBlocks request) running waiting skipped streaming
        flight).requests.get? request.requestId = some request := by
      rw [same]
      exact found
    exact Relation.ReflTransGen.tail moves (.forgotten kept ended)

/-- The request has its last status when the connector is told. -/
theorem free_request_moves (found : engine.requests.get? request.requestId = some request)
    (ended : request.isFinished = true) (delayFreeBlocks : Bool) :
    ∃ after, freeRequest engine request delayFreeBlocks = .ok after ∧
      Released engine after request.requestId ∧
      Moves ((placed engine running waiting skipped streaming flight).report request.requestId)
        (placed after running waiting skipped streaming flight) := by
  unfold freeRequest
  rw [if_pos ended]
  dsimp only
  split
  · exact ⟨_, rfl, ⟨rfl, rfl, rfl, rfl, rfl, fun _ _ => rfl⟩, .refl⟩
  · obtain ⟨after, done, released, moves⟩ := @free_blocks_moves _
      { (engine.query (.requestFinished request.requestId)).2 with
        finishedReqIds := engine.finishedReqIds.insert request.requestId } request running waiting
      skipped streaming flight found ended
    exact ⟨after, done, ⟨released.config, released.running, released.waiting,
      released.skippedWaiting, released.streaming, released.others⟩, moves⟩

/-- A request that is not finished gets its last status, wherever it stood. -/
theorem end_move {old : Request}
    (filed : (placed engine running waiting skipped streaming flight).Filed)
    (found : engine.requests.get? request.requestId = some old) (account : SameAccount old request)
    (unfinished : old.isFinished = false) (ended : request.isFinished = true) :
    Move (placed engine running waiting skipped streaming flight)
      ((placed (engine.setRequest request) (running.erase request.requestId)
        (waiting.erase request.requestId) (skipped.erase request.requestId)
          (streaming - streams old) flight).report request.requestId) := by
  by_cases ran : old.status = .running
  · have nowhere := filed.queuedOnce request.requestId
    rw [show (placed engine running waiting skipped streaming flight).requests.get?
      request.requestId = some old from found] at nowhere
    simp only [Option.elim_some, waits, ran, ne_eq, not_true, false_and, if_false] at nowhere
    have outside : request.requestId ∉ waiting ∧ request.requestId ∉ skipped := by
      constructor
      · exact fun member => by
          have positive : 0 < (placed engine running waiting skipped streaming
            flight).waiting.count request.requestId := Multiset.count_pos.mpr member
          omega
      · exact fun member => by
          have positive : 0 < (placed engine running waiting skipped streaming
            flight).skipped.count request.requestId := Multiset.count_pos.mpr member
          omega
    have steady : streams old = 0 := by simp [streams, ran]
    rw [Multiset.erase_of_notMem outside.1, Multiset.erase_of_notMem outside.2, steady, sub_zero]
    exact .stopped found account ran ended
  · have outside : request.requestId ∉ running := by
      intro member
      obtain ⟨other, sameFound, runs⟩ := (Filed.mem_running filed).mp member
      cases sameFound.symm.trans found
      exact ran runs
    rw [Multiset.erase_of_notMem outside]
    exact .ended found account (if_pos ⟨ran, unfinished⟩) ended

theorem finish_request_moves (finishedStatus : FinishedStatus)
    (filed : (placed engine running waiting skipped streaming flight).Filed)
    (found : engine.requests.get? request.requestId = some request)
    (unfinished : request.isFinished = false) :
    ∃ after, finishRequest engine finishedStatus request = .ok after ∧
      Released engine after request.requestId ∧
      Moves (placed engine running waiting skipped streaming flight)
        (placed after (running.erase request.requestId) (waiting.erase request.requestId)
          (skipped.erase request.requestId) (streaming - streams request) flight) := by
  unfold finishRequest
  dsimp only
  generalize loaded : (if decide (request.status = .waitingForRemoteKvs) = true then
    { engine with
      finishedRecvingKvReqIds := engine.finishedRecvingKvReqIds.erase request.requestId
      failedRecvingKvReqIds := engine.failedRecvingKvReqIds.erase request.requestId }
    else engine) = next
  have frame : ∃ finished failed, next =
      { engine with finishedRecvingKvReqIds := finished, failedRecvingKvReqIds := failed } := by
    rw [← loaded]
    split
    · exact ⟨_, _, rfl⟩
    · exact ⟨_, _, rfl⟩
  obtain ⟨finished, failed, rfl⟩ := frame
  have move := @end_move Q engine (request.withStatus (.finished finishedStatus)) running waiting
    skipped streaming flight request filed found ⟨rfl, rfl, rfl, rfl⟩ unfinished rfl
  obtain ⟨after, done, released, moves⟩ := @free_request_moves Q
    (Engine.setRequest
      { engine with finishedRecvingKvReqIds := finished, failedRecvingKvReqIds := failed }
      (request.withStatus (.finished finishedStatus)))
    (request.withStatus (.finished finishedStatus)) (running.erase request.requestId)
    (waiting.erase request.requestId) (skipped.erase request.requestId)
    (streaming - streams request) flight (OrderedMap.get_set_self _ _ _) rfl
    (decide (request.status = .waitingForRemoteKvs) &&
      decide (request.requestId ∉ engine.finishedRecvingKvReqIds))
  refine ⟨after, done, ⟨released.config, released.running, released.waiting,
    released.skippedWaiting, released.streaming, fun other differs => ?_⟩, .head move moves⟩
  exact (released.others other differs).trans (OrderedMap.get_set_of_ne _ _ differs)

theorem finish_all_moves (finishedStatus : FinishedStatus) (ending : List Request)
    (filed : (placed engine running waiting skipped streaming flight).Filed)
    (distinct : (ending.map Request.requestId).Nodup)
    (valid : ∀ request ∈ ending, engine.requests.get? request.requestId = some request ∧
      request.isFinished = false) :
    ∃ after, finishAll finishedStatus ending engine = .ok after ∧
      after.config = engine.config ∧ after.running = engine.running ∧
      after.waiting = engine.waiting ∧ after.skippedWaiting = engine.skippedWaiting ∧
      after.numWaitingForStreamingInput = engine.numWaitingForStreamingInput ∧
      Moves (placed engine running waiting skipped streaming flight)
        (placed after (running - (ending.map Request.requestId : List ReqId))
          (waiting - (ending.map Request.requestId : List ReqId))
          (skipped - (ending.map Request.requestId : List ReqId))
          (streaming - (ending.map streams).sum) flight) := by
  induction ending generalizing engine running waiting skipped streaming with
  | nil =>
      refine ⟨engine, rfl, rfl, rfl, rfl, rfl, rfl, ?_⟩
      simp only [List.map_nil, List.sum_nil, Multiset.coe_nil, Multiset.sub_zero, sub_zero]
      exact .refl
  | cons request rest ih =>
      obtain ⟨found, unfinished⟩ := valid request List.mem_cons_self
      obtain ⟨middle, done, released, moves⟩ :=
        finish_request_moves finishedStatus filed found unfinished
      rw [List.map_cons, List.nodup_cons] at distinct
      have later : ∀ other ∈ rest, middle.requests.get? other.requestId = some other ∧
          other.isFinished = false := by
        intro other member
        have differs : other.requestId ≠ request.requestId := fun same =>
          distinct.1 (same ▸ List.mem_map_of_mem member)
        rw [released.others other.requestId differs]
        exact valid other (List.mem_cons_of_mem _ member)
      obtain ⟨after, doneLater, sameConfig, sameRunning, sameWaiting, sameSkipped, sameStreaming,
        chain⟩ := ih (filed_moves filed moves) distinct.2 later
      refine ⟨after, ?_, sameConfig.trans released.config, sameRunning.trans released.running,
        sameWaiting.trans released.waiting, sameSkipped.trans released.skippedWaiting,
        sameStreaming.trans released.streaming, ?_⟩
      · unfold finishAll
        simp only [done, ok_bind]
        exact doneLater
      · rw [List.map_cons, List.map_cons, List.sum_cons, ← Multiset.cons_coe, Multiset.sub_cons,
          Multiset.sub_cons, Multiset.sub_cons, ← sub_sub]
        exact moves.trans chain

/-- Those of a queue that are among the ids leave it. -/
theorem sub_eq_filter {queue : Multiset ReqId} (distinct : queue.Nodup) {ids leaving : List ReqId}
    (agree : ∀ reqId ∈ queue, reqId ∈ ids ↔ reqId ∈ leaving) :
    queue - (ids : Multiset ReqId) = queue.filter fun reqId => reqId ∉ leaving := by
  rw [Multiset.ext]
  intro reqId
  rw [Multiset.count_sub, Multiset.count_filter, Multiset.coe_count]
  have once := Multiset.nodup_iff_count_le_one.mp distinct reqId
  by_cases member : reqId ∈ queue
  · by_cases leaves : reqId ∈ leaving
    · have listed := List.count_pos_iff.mpr ((agree reqId member).mpr leaves)
      rw [if_neg (not_not.mpr leaves)]
      omega
    · have absent := List.count_eq_zero.mpr fun listed => leaves ((agree reqId member).mp listed)
      rw [if_pos leaves]
      omega
  · have absent := Multiset.count_eq_zero.mpr member
    split
    · omega
    · omega

/-- The ids of tracked requests, in their order. -/
theorem tracked_ids_sublist {requests : OrderedMap ReqId Request}
    (ids : ∀ reqId request, requests.get? reqId = some request → request.requestId = reqId)
    (reqIds : List ReqId) :
    ((reqIds.filterMap requests.get?).map Request.requestId).Sublist reqIds := by
  induction reqIds with
  | nil => exact List.Sublist.slnil
  | cons reqId rest ih =>
      cases found : requests.get? reqId with
      | none =>
          rw [List.filterMap_cons_none found]
          exact ih.cons reqId
      | some request =>
          rw [List.filterMap_cons_some found, List.map_cons, ids reqId request found]
          exact ih.cons_cons reqId

theorem streams_sum (requests : List Request) : (requests.map streams).sum =
    ((requests.filter fun request =>
      decide (request.status = .waitingForStreamingReq)).length : Int) := by
  induction requests with
  | nil => rfl
  | cons request rest ih =>
      rw [List.map_cons, List.sum_cons, ih, List.filter_cons]
      unfold streams
      by_cases waits : request.status = .waitingForStreamingReq
      · rw [if_pos waits, if_pos (decide_eq_true waits), List.length_cons]
        push_cast
        omega
      · rw [if_neg waits, if_neg fun listed => waits (of_decide_eq_true listed), zero_add]

section Queues

variable [LawfulRequestQueue Q]

theorem queued_remove (queue : Q) (removed : List ReqId) :
    queued (RequestQueue.remove queue removed) =
      (queued queue).filter fun reqId => reqId ∉ removed := by
  unfold queued
  rw [Multiset.filter_coe]
  exact Multiset.coe_eq_coe.mpr (LawfulRequestQueue.items_remove queue removed)

omit [LawfulRequestQueue Q] in
theorem queues_nodup (filed : (placed engine running waiting skipped streaming flight).Filed) :
    running.Nodup ∧ waiting.Nodup ∧ skipped.Nodup := by
  have once : ∀ reqId, waiting.count reqId + skipped.count reqId ≤ 1 := by
    intro reqId
    have count := filed.queuedOnce reqId
    cases found : engine.requests.get? reqId with
    | none =>
        rw [show (placed engine running waiting skipped streaming flight).requests.get? reqId =
          none from found] at count
        exact count.le.trans (Nat.zero_le _)
    | some request =>
        rw [show (placed engine running waiting skipped streaming flight).requests.get? reqId =
          some request from found] at count
        refine count.le.trans ?_
        show waits request ≤ 1
        unfold waits
        split <;> decide
  refine ⟨Filed.running_nodup filed, Multiset.nodup_iff_count_le_one.mpr fun reqId => ?_,
    Multiset.nodup_iff_count_le_one.mpr fun reqId => ?_⟩
  · have both := once reqId
    omega
  · have both := once reqId
    omega

/-- Requests are ended on demand. -/
theorem finish_requests_moves (filed : (view engine 0 flight).Filed) (reqIds : List ReqId)
    (finishedStatus : FinishedStatus) :
    ∃ after, finishRequests engine reqIds finishedStatus = .ok after ∧
      Moves (view engine 0 flight) (view after 0 flight) := by
  unfold finishRequests
  generalize listed : validRequests engine reqIds.dedup = ending
  have valid : ∀ request ∈ ending, engine.requests.get? request.requestId = some request ∧
      request.isFinished = false := by
    intro request member
    rw [← listed] at member
    obtain ⟨tracked, unfinished⟩ := List.mem_filter.mp member
    obtain ⟨reqId, _, found⟩ := List.mem_filterMap.mp tracked
    exact ⟨(filed.ids reqId request found).symm ▸ found, by simpa using unfinished⟩
  have distinct : (ending.map Request.requestId).Nodup := by
    rw [← listed]
    refine List.Nodup.sublist ?_ (List.nodup_dedup reqIds)
    exact (List.Sublist.map _ List.filter_sublist).trans (tracked_ids_sublist filed.ids _)
  have filedPlaced : (placed (removeFromQueues engine ending) engine.running
      (queued engine.waiting) (queued engine.skippedWaiting + 0)
      engine.numWaitingForStreamingInput flight).Filed := filed
  obtain ⟨after, done, sameConfig, sameRunning, sameWaiting, sameSkipped, sameStreaming, moves⟩ :=
    finish_all_moves finishedStatus ending filedPlaced distinct valid
  refine ⟨after, done, ?_⟩
  obtain ⟨runningOnce, waitingOnce, skippedOnce⟩ := queues_nodup filedPlaced
  have ran : ∀ request ∈ ending, request.requestId ∈ engine.running →
      request.status = .running := by
    intro request member present
    obtain ⟨other, found, runs⟩ := (Filed.mem_running filed).mp (Multiset.mem_coe.mpr present)
    cases found.symm.trans (valid request member).1
    exact runs
  have queuedThere : ∀ request ∈ ending, request.requestId ∈ queued engine.waiting ∨
      request.requestId ∈ queued engine.skippedWaiting + 0 → request.status ≠ .running := by
    intro request member present
    obtain ⟨other, found, waits, _⟩ := (Filed.mem_queued filed).mp present
    cases found.symm.trans (valid request member).1
    exact waits
  have runningAgree : ∀ reqId ∈ (engine.running : Multiset ReqId),
      reqId ∈ ending.map Request.requestId ↔ reqId ∈ (ending.filter fun request =>
        decide (request.status = .running)).map Request.requestId := by
    intro reqId present
    constructor
    · intro member
      obtain ⟨request, ends, rfl⟩ := List.mem_map.mp member
      exact List.mem_map_of_mem
        (List.mem_filter.mpr ⟨ends, decide_eq_true (ran request ends present)⟩)
    · intro member
      obtain ⟨request, ends, rfl⟩ := List.mem_map.mp member
      exact List.mem_map_of_mem (List.mem_of_mem_filter ends)
  have queuedAgree : ∀ reqId, reqId ∈ queued engine.waiting ∨
      reqId ∈ queued engine.skippedWaiting + 0 →
      (reqId ∈ ending.map Request.requestId ↔ reqId ∈ (ending.filter fun request =>
        !decide (request.status = .running)).map Request.requestId) := by
    intro reqId present
    constructor
    · intro member
      obtain ⟨request, ends, rfl⟩ := List.mem_map.mp member
      refine List.mem_map_of_mem (List.mem_filter.mpr ⟨ends, ?_⟩)
      simpa using queuedThere request ends present
    · intro member
      obtain ⟨request, ends, rfl⟩ := List.mem_map.mp member
      exact List.mem_map_of_mem (List.mem_of_mem_filter ends)
  rw [sub_eq_filter runningOnce runningAgree,
    sub_eq_filter waitingOnce fun reqId present => queuedAgree reqId (.inl present),
    sub_eq_filter skippedOnce fun reqId present => queuedAgree reqId (.inr present)] at moves
  have last : view after 0 flight = placed after
      ((engine.running : Multiset ReqId).filter fun reqId => reqId ∉
        (ending.filter fun request => decide (request.status = .running)).map Request.requestId)
      ((queued engine.waiting).filter fun reqId => reqId ∉ (ending.filter fun request =>
        !decide (request.status = .running)).map Request.requestId)
      ((queued engine.skippedWaiting + 0).filter fun reqId => reqId ∉ (ending.filter fun request =>
        !decide (request.status = .running)).map Request.requestId)
      (engine.numWaitingForStreamingInput - (ending.map streams).sum) flight := by
    unfold view deskOf placed
    rw [sameRunning, sameWaiting, sameSkipped, sameStreaming, streams_sum, add_zero, add_zero,
      Multiset.filter_coe]
    unfold removeFromQueues
    dsimp only
    rw [queued_remove, queued_remove]
    rfl
  rw [last]
  exact moves

end Queues

end KvOffload.EngineReturns
