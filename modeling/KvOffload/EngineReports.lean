import KvOffload.EngineUpdates

/-!
# Worker reports as moves

Blocks that failed to load, finished transfers, and deferred blocks whose steps are processed: with
the tokens they make up the whole of `update_from_output`.
-/

namespace KvOffload.EngineReports

open KvOffload KvOffload.Base KvOffload.EngineState KvOffload.EngineScheduling
open KvOffload.EngineOutputs KvOffload.EnginePlaces KvOffload.EngineDesk KvOffload.EngineMoves
open KvOffload.EngineAccounts KvOffload.EngineReturns KvOffload.EngineUpdates
open KvOffload.FallibleChains

set_option autoImplicit false

variable {Q : Type} [LawfulRequestQueue Q] {engine : Engine Q} {flight : List InFlight}

/-- A request that keeps its status is still a session where it was one. -/
def SameKind (before after : Engine Q) : Prop :=
  ∀ reqId request, after.requests.get? reqId = some request → ∃ old,
    before.requests.get? reqId = some old ∧ request.status = old.status ∧
      request.resumable = old.resumable

omit [LawfulRequestQueue Q] in
theorem SameKind.refl (engine : Engine Q) : SameKind engine engine :=
  fun _ request found => ⟨request, found, rfl, rfl⟩

omit [LawfulRequestQueue Q] in
theorem SameKind.trans {first second third : Engine Q} (early : SameKind first second)
    (late : SameKind second third) : SameKind first third := by
  intro reqId request found
  obtain ⟨middle, foundMiddle, status, resumable⟩ := late reqId request found
  obtain ⟨old, foundOld, oldStatus, oldResumable⟩ := early reqId middle foundMiddle
  exact ⟨old, foundOld, status.trans oldStatus, resumable.trans oldResumable⟩

section InvalidBlocks

variable {invalidBlockIds : List Nat} {numScheduledTokens : OrderedMap ReqId Int}
  {evictBlocks : Bool} {scan : InvalidScan Q}

theorem scan_request_moves {request : Request} (filed : (view scan.engine 0 flight).Filed)
    (found : scan.engine.requests.get? request.requestId = some request) :
    Moves (view scan.engine 0 flight) (view (scanRequest invalidBlockIds numScheduledTokens
        evictBlocks scan request).engine 0 flight) ∧
      SameKind scan.engine (scanRequest invalidBlockIds numScheduledTokens evictBlocks scan
        request).engine ∧
      ∀ other, other ≠ request.requestId → (scanRequest invalidBlockIds numScheduledTokens
        evictBlocks scan request).engine.requests.get? other =
          scan.engine.requests.get? other := by
  have asked : Moves (view scan.engine 0 flight)
      (view (scan.engine.query (.getBlocks request.requestId)).2 0 flight) :=
    told_moves rfl (fun _ serves => by cases serves)
  have sets : ∀ numComputedTokens : Int, Moves (view scan.engine 0 flight)
      (view ((scan.engine.query (.getBlocks request.requestId)).2.setRequest
        (request.withComputed numComputedTokens)) 0 flight) := by
    intro numComputedTokens
    have edited := @Move.edited (view (scan.engine.query (.getBlocks request.requestId)).2 0 flight)
      request (request.withComputed numComputedTokens) found ⟨rfl, rfl, rfl, rfl⟩ rfl
      (filed.sessions _ request found)
    exact asked.tail edited
  unfold scanRequest
  refine ⟨sets _, fun reqId other foundOther => ?_, fun other differs =>
    OrderedMap.get_set_of_ne _ _ differs⟩
  change (scan.engine.requests.set request.requestId _).get? reqId = some other at foundOther
  rw [OrderedMap.get_set] at foundOther
  split at foundOther
  · rename_i same
    cases foundOther
    exact ⟨request, same ▸ found, rfl, rfl⟩
  · exact ⟨other, foundOther, rfl, rfl⟩

theorem scan_moves (requests : List Request) (filed : (view scan.engine 0 flight).Filed)
    (distinct : (requests.map Request.requestId).Nodup)
    (found : ∀ request ∈ requests, scan.engine.requests.get? request.requestId = some request) :
    Moves (view scan.engine 0 flight) (view (requests.foldl (scanRequest invalidBlockIds
        numScheduledTokens evictBlocks) scan).engine 0 flight) ∧
      SameKind scan.engine (requests.foldl (scanRequest invalidBlockIds numScheduledTokens
        evictBlocks) scan).engine := by
  induction requests generalizing scan with
  | nil => exact ⟨.refl, SameKind.refl _⟩
  | cons request rest ih =>
      rw [List.map_cons, List.nodup_cons] at distinct
      obtain ⟨moves, same, others⟩ := @scan_request_moves Q _ flight invalidBlockIds
        numScheduledTokens evictBlocks scan request filed (found request List.mem_cons_self)
      have later := @ih (scanRequest invalidBlockIds numScheduledTokens evictBlocks scan request)
        (filed_moves filed moves) distinct.2 fun other member => by
          rw [others other.requestId fun equal =>
            distinct.1 (equal ▸ List.mem_map_of_mem member)]
          exact found other (List.mem_cons_of_mem _ member)
      exact ⟨moves.trans later.1, same.trans later.2⟩

/-- The requests that a queue shows can be scanned. -/
theorem listed_requests (filed : (view engine 0 flight).Filed) {ids : List ReqId}
    (distinct : ids.Nodup) :
    ((ids.filterMap engine.requests.get?).map Request.requestId).Nodup ∧
      ∀ request ∈ ids.filterMap engine.requests.get?,
        engine.requests.get? request.requestId = some request := by
  refine ⟨(tracked_ids_sublist filed.ids ids).nodup distinct, fun request member => ?_⟩
  obtain ⟨reqId, _, found⟩ := List.mem_filterMap.mp member
  exact (filed.ids reqId request found).symm ▸ found

theorem handle_invalid_blocks_moves (filed : (view engine 0 flight).Filed)
    (invalidBlockIds : List Nat) (numScheduledTokens : OrderedMap ReqId Int) :
    Moves (view engine 0 flight)
        (view (handleInvalidBlocks engine invalidBlockIds numScheduledTokens).2 0 flight) ∧
      SameKind engine (handleInvalidBlocks engine invalidBlockIds numScheduledTokens).2 := by
  have skippedOnce : (RequestQueue.items engine.skippedWaiting).Nodup := by
    have nodups := @queues_nodup Q engine _ _ _ engine.numWaitingForStreamingInput flight filed
    have skipped := nodups.2.2
    rw [add_zero] at skipped
    exact Multiset.coe_nodup.mp skipped
  obtain ⟨distinct, found⟩ := listed_requests filed skippedOnce
  unfold handleInvalidBlocks
  dsimp only
  generalize loading : ((RequestQueue.items engine.skippedWaiting).filterMap
    engine.requests.get?).filter (fun request =>
      decide (request.status = .waitingForRemoteKvs)) = loads
  have early := @scan_moves Q _ flight invalidBlockIds numScheduledTokens false
    { engine := engine } loads filed
    (by
      rw [← loading]
      exact (List.filter_sublist.map _).nodup distinct)
    (by
      rw [← loading]
      exact fun request member => found request (List.mem_of_mem_filter member))
  unfold updateRequestsWithInvalidBlocks
  generalize loads.foldl (scanRequest invalidBlockIds numScheduledTokens false)
    { engine := engine } = first at early ⊢
  have filedFirst := filed_moves filed early.1
  have runningOnce : first.engine.running.Nodup :=
    Multiset.coe_nodup.mp (Filed.running_nodup filedFirst)
  obtain ⟨distinctRunning, foundRunning⟩ := listed_requests filedFirst runningOnce
  have late := @scan_moves Q _ flight invalidBlockIds numScheduledTokens true
    { engine := first.engine } _ filedFirst distinctRunning foundRunning
  generalize (first.engine.running.filterMap first.engine.requests.get?).foldl
    (scanRequest invalidBlockIds numScheduledTokens true) { engine := first.engine } = second
    at late ⊢
  have both := early.1.trans late.1
  have same := early.2.trans late.2
  split
  · exact ⟨both, same⟩
  · split
    · exact ⟨both, same⟩
    · split
      · exact ⟨both, same⟩
      · exact ⟨both.trans (told_moves rfl (fun _ serves => by cases serves)), same⟩

end InvalidBlocks

section Transfers

/-- A request that the connector knows is finished, where it is still there. -/
def Gone (desk : Desk) (reqId : ReqId) : Prop :=
  EngineCall.onNewRequest reqId ∈ desk.calls ∧
    ∀ request, desk.requests.get? reqId = some request → request.isFinished = true

omit [LawfulRequestQueue Q] in
theorem gone_set {desk : Desk} {reqId : ReqId} (gone : Gone desk reqId) {old request : Request}
    (found : desk.requests.get? request.requestId = some old)
    (keeps : old.isFinished = true → request.isFinished = true) :
    ∀ other, (desk.requests.set request.requestId request).get? reqId = some other →
      other.isFinished = true := by
  intro other foundOther
  rw [OrderedMap.get_set] at foundOther
  split at foundOther
  · rename_i same
    cases foundOther
    exact keeps (gone.2 old (same ▸ found))
  · exact gone.2 other foundOther

theorem finished_congr {old request : Request} (same : request.status = old.status)
    (ended : old.isFinished = true) : request.isFinished = true := by
  unfold Request.isFinished at ended ⊢
  rw [same]
  exact ended

theorem not_finished_of_running {request : Request} (ran : request.status = .running) :
    ¬request.isFinished = true := by
  unfold Request.isFinished
  rw [ran]
  decide

/-- A finished request does not come back. -/
theorem gone_move {before after : Desk} {reqId : ReqId} (filed : before.Filed)
    (gone : Gone before reqId) (move : Move before after) : Gone after reqId := by
  have more : ∀ (desk : Desk) (call : EngineCall), EngineCall.onNewRequest reqId ∈ desk.calls →
      EngineCall.onNewRequest reqId ∈ desk.calls ++ [call] :=
    fun _ _ member => List.mem_append_left _ member
  cases move with
  | told _ _ => exact ⟨more _ _ gone.1, gone.2⟩
  | edited found _ same _ => exact ⟨gone.1, gone_set gone found (finished_congr same)⟩
  | requeued found _ queuedBefore _ _ _ _ _ =>
      refine ⟨gone.1, gone_set gone found fun ended => ?_⟩
      rw [waits, if_neg fun both => absurd ended (by rw [both.2]; decide)] at queuedBefore
      cases queuedBefore
  | skipped _ => exact gone
  | preempted dropStaleOutput found ran =>
      exact ⟨gone.1, @gone_set _ _ gone _ (Engine.preempted _ dropStaleOutput) found
        fun ended => absurd ended (not_finished_of_running ran)⟩
  | @admitted old request skipped found _ stands _ _ _ =>
      refine ⟨gone.1, gone_set gone found fun ended => ?_⟩
      have member : request.requestId ∈ before.skipped := by
        rw [stands]
        exact Multiset.mem_cons_self _ _
      obtain ⟨other, sameFound, _, unfinished⟩ := (Filed.mem_queued filed).mp (.inr member)
      cases sameFound.symm.trans found
      rw [unfinished] at ended
      cases ended
  | advanced found ran same _ _ _ _ _ =>
      exact ⟨gone.1, gone_set gone found fun ended => absurd ended (not_finished_of_running ran)⟩
  | drained _ _ found same _ _ => exact ⟨gone.1, gone_set gone found (finished_congr same)⟩
  | passed _ _ => exact gone
  | stopped found _ _ ended => exact ⟨more _ _ gone.1, gone_set gone found fun _ => ended⟩
  | paused found _ ran _ _ =>
      exact ⟨gone.1, gone_set gone found fun ended => absurd ended (not_finished_of_running ran)⟩
  | continued found _ ran _ =>
      exact ⟨gone.1, gone_set gone found fun ended => absurd ended (not_finished_of_running ran)⟩
  | ended found _ _ ended => exact ⟨more _ _ gone.1, gone_set gone found fun _ => ended⟩
  | @added request waiting skipped fresh _ _ _ unknown _ =>
      refine ⟨more _ _ gone.1, fun other foundOther => ?_⟩
      change (before.requests.set request.requestId request).get? reqId = some other at foundOther
      rw [OrderedMap.get_set_of_ne _ _ fun same : reqId = request.requestId =>
        unknown (same ▸ gone.1)] at foundOther
      exact gone.2 other foundOther
  | @forgotten request _ _ =>
      refine ⟨gone.1, fun other foundOther => ?_⟩
      change (before.requests.erase request.requestId).get? reqId = some other at foundOther
      rw [OrderedMap.get_erase] at foundOther
      split at foundOther
      · cases foundOther
      · exact gone.2 other foundOther
  | freed _ _ => exact ⟨more _ _ gone.1, gone.2⟩
  | deferred _ _ => exact ⟨more _ _ gone.1, gone.2⟩
  | copied _ =>
      split
      · exact ⟨more _ _ gone.1, gone.2⟩
      · exact gone
  | released _ _ => exact ⟨more _ _ gone.1, gone.2⟩
  | sent _ _ => exact ⟨more _ _ gone.1, gone.2⟩
  | processed => exact gone

theorem gone_moves {before after : Desk} {reqId : ReqId} (filed : before.Filed)
    (gone : Gone before reqId) (moves : Moves before after) : Gone after reqId := by
  induction moves with
  | refl => exact gone
  | tail early move ih => exact gone_move (filed_moves filed early) ih move

theorem release_moves (filed : (view engine 0 flight).Filed) {reqId : ReqId} {request : Request}
    (found : engine.requests.get? reqId = some request) (ended : request.isFinished = true) :
    ∃ after, freeBlocks engine request = .ok after ∧
      Moves (view engine 0 flight) (view after 0 flight) := by
  obtain rfl : reqId = request.requestId := (filed.ids reqId request found).symm
  obtain ⟨after, done, released, moves⟩ := @free_blocks_moves Q engine request engine.running
    (queued engine.waiting) (queued engine.skippedWaiting + 0) engine.numWaitingForStreamingInput
    flight found ended
  refine ⟨after, done, ?_⟩
  have last : view after 0 flight = placed after engine.running (queued engine.waiting)
      (queued engine.skippedWaiting + 0) engine.numWaitingForStreamingInput flight := by
    unfold view deskOf placed
    rw [released.running, released.waiting, released.skippedWaiting, released.streaming]
    rfl
  rw [last]
  exact moves

theorem receive_moves (reqIds : List ReqId) (filed : (view engine 0 flight).Filed) :
    ∃ after, receive engine reqIds = .ok after ∧
      Moves (view engine 0 flight) (view after 0 flight) := by
  induction reqIds generalizing engine with
  | nil => exact ⟨engine, rfl, .refl⟩
  | cons reqId rest ih =>
      unfold receive
      cases found : engine.requests.get? reqId with
      | none => exact ih filed
      | some request =>
          dsimp only
          split
          · exact @ih { engine with
              finishedRecvingKvReqIds := engine.finishedRecvingKvReqIds.insert reqId } filed
          · split
            · rename_i ended
              obtain ⟨middle, done, moves⟩ := release_moves filed found ended
              obtain ⟨after, doneLater, later⟩ := ih (filed_moves filed moves)
              refine ⟨after, ?_, moves.trans later⟩
              rw [done, ok_bind]
              exact doneLater
            · exact ih filed

theorem send_moves (reqIds : List ReqId) (filed : (view engine 0 flight).Filed)
    (gone : ∀ reqId ∈ reqIds, Gone (view engine 0 flight) reqId) :
    ∃ after, send engine reqIds = .ok after ∧
      Moves (view engine 0 flight) (view after 0 flight) := by
  induction reqIds generalizing engine with
  | nil => exact ⟨engine, rfl, .refl⟩
  | cons reqId rest ih =>
      unfold send
      cases found : engine.requests.get? reqId with
      | none => exact ih filed fun other member => gone other (List.mem_cons_of_mem _ member)
      | some request =>
          obtain ⟨middle, done, moves⟩ := release_moves filed found
            ((gone reqId List.mem_cons_self).2 request found)
          obtain ⟨after, doneLater, later⟩ := ih (filed_moves filed moves) fun other member =>
            gone_moves filed (gone other (List.mem_cons_of_mem _ member)) moves
          refine ⟨after, ?_, moves.trans later⟩
          dsimp only
          rw [done, ok_bind]
          exact doneLater

/-- The deferred blocks whose steps are processed go back. -/
theorem drain_deferred_moves (entries : List (Nat × List Nat)) :
    Moves ((view engine 0 flight).withDeferred entries)
      (view (Engine.drainDeferredFrees entries engine) 0 flight) := by
  induction entries generalizing engine with
  | nil => exact .refl
  | cons entry rest ih =>
      obtain ⟨fence, blocks⟩ := entry
      unfold Engine.drainDeferredFrees
      split
      · exact .refl
      · rename_i passed
        have released := @Move.released
          ((view engine 0 flight).withDeferred ((fence, blocks) :: rest)) fence blocks rest rfl
          (not_lt.mp passed)
        exact .head released (@ih (engine.tell (.freeBlocks blocks.reverse)))

omit [LawfulRequestQueue Q] in
theorem drain_deferred_frame (entries : List (Nat × List Nat)) :
    (Engine.drainDeferredFrees entries engine).requests = engine.requests := by
  induction entries generalizing engine with
  | nil => rfl
  | cons entry rest ih =>
      obtain ⟨fence, blocks⟩ := entry
      unfold Engine.drainDeferredFrees
      split
      · rfl
      · exact @ih (engine.tell (.freeBlocks blocks.reverse))

end Transfers

section Update

/-- What the workers report of a step that was handed out. -/
structure Reportable (engine : Engine Q) (output : SchedulerOutput) (result : ModelRunnerOutput) :
    Prop where
  ordinary : ∀ reqId ∈ output.numScheduledTokens.keys, ∀ request,
    engine.requests.get? reqId = some request → request.status ≠ .running →
    request.isFinished = false → request.resumable = false
  sent : ∀ reqId ∈ result.finishedSending, EngineCall.onNewRequest reqId ∈ engine.calls ∧
    ∀ request, engine.requests.get? reqId = some request → request.isFinished = true

theorem progress_start (engine : Engine Q) (flight : List InFlight) :
    progressDesk { engine := engine } flight = view engine 0 flight := by
  unfold progressDesk view
  simp only [List.not_mem_nil, not_false_eq_true, Multiset.filter_true, add_zero]

theorem view_remove_stopped (progress : Progress Q) (flight : List InFlight) :
    view (removeStopped progress) 0 flight = progressDesk progress flight := by
  unfold progressDesk view removeStopped
  dsimp only
  rw [queued_remove, queued_remove, add_zero, Multiset.filter_coe]
  rfl

theorem update_from_output_moves {output : SchedulerOutput} {result : ModelRunnerOutput}
    (own : List InFlight) (filed : (view engine 0 (own ++ flight)).Filed)
    (accounted : Accounted (view engine 0 (own ++ flight)))
    (same : own.map (fun flown => (flown.reqId, flown.tokens)) = output.numScheduledTokens.entries)
    (reportable : Reportable engine output result) :
    ∃ after, updateFromOutput engine output result = .ok after ∧
      Moves (view engine 0 (own ++ flight)) (view after 0 flight) := by
  unfold updateFromOutput
  dsimp only
  generalize drained : (if engine.config.deferBlockFree = true ∧
      0 < output.totalNumScheduledTokens then
    Engine.drainDeferredFrees engine.deferredFrees
      { engine with processedStepSeq := engine.processedStepSeq + 1 }
    else engine) = first
  have early : Moves (view engine 0 (own ++ flight)) (view first 0 (own ++ flight)) ∧
      SameKind engine first := by
    rw [← drained]
    split
    · refine ⟨.head .processed (@drain_deferred_moves Q _
        { engine with processedStepSeq := engine.processedStepSeq + 1 } (own ++ flight)
        engine.deferredFrees), fun reqId request found => ?_⟩
      rw [drain_deferred_frame] at found
      exact ⟨request, found, rfl, rfl⟩
    · exact ⟨.refl, SameKind.refl engine⟩
  generalize handled : (if result.invalidBlockIds = [] then ([], first)
    else handleInvalidBlocks first result.invalidBlockIds output.numScheduledTokens) = pair
  have middle : Moves (view engine 0 (own ++ flight)) (view pair.2 0 (own ++ flight)) ∧
      SameKind engine pair.2 := by
    rw [← handled]
    split
    · exact early
    · obtain ⟨moves, kind⟩ := handle_invalid_blocks_moves (filed_moves filed early.1)
        result.invalidBlockIds output.numScheduledTokens
      exact ⟨early.1.trans moves, early.2.trans kind⟩
  obtain ⟨failed, second⟩ := pair
  dsimp only at middle ⊢
  rw [← progress_start second] at middle
  have ordinary : ∀ entry ∈ output.numScheduledTokens.entries, ∀ request,
      second.requests.get? entry.1 = some request → request.status ≠ .running →
      request.isFinished = false → request.resumable = false := by
    intro entry member request found elsewhere unfinished
    obtain ⟨old, foundOld, status, resumable⟩ := middle.2 entry.1 request found
    rw [resumable]
    refine reportable.ordinary entry.1 (List.mem_map_of_mem member) old foundOld
      (status ▸ elsewhere) ?_
    rw [Request.isFinished, ← status]
    exact unfinished
  have distinct : (output.numScheduledTokens.entries.map Prod.fst).Nodup :=
    OrderedMap.keys_nodup _
  obtain ⟨progress, done, moves⟩ := update_requests_moves output.numScheduledTokens.entries own
    (filed_moves filed middle.1) (accounted_moves accounted middle.1) same distinct ordinary
    (fun _ _ => List.not_mem_nil) output result failed
  have chain := middle.1.trans moves
  rw [← view_remove_stopped] at chain
  rw [done, ok_bind]
  have filedNow := filed_moves filed chain
  obtain ⟨finished, ended, finishes⟩ := @finish_requests_moves Q
    { removeStopped progress with grammarCompileErrorReqs := [] } flight _ filedNow
    ((removeStopped progress).grammarCompileErrorReqs ∪
      (if (removeStopped progress).config.recomputeKvLoadFailures = true then [] else failed))
    .error
  rw [ended, ok_bind]
  have further := Relation.ReflTransGen.trans chain finishes
  have told : Moves (view finished 0 flight)
      (view (finished.tell .updateConnectorOutput) 0 flight) :=
    told_moves rfl (fun _ serves => by cases serves)
  have reached := further.trans told
  unfold updateFromKvXferFinished
  obtain ⟨received, receivedOk, receives⟩ := receive_moves result.finishedRecving
    (filed_moves filed reached)
  have all := reached.trans receives
  obtain ⟨after, sentOk, sends⟩ := send_moves result.finishedSending (filed_moves filed all)
    fun reqId member => gone_moves filed (reportable.sent reqId member) all
  refine ⟨after, ?_, all.trans sends⟩
  rw [receivedOk, ok_bind]
  exact sentOk

/-- The running requests are preempted from the last one on. -/
theorem preempt_all_moves (reqIds : List ReqId) (filed : (view engine 0 flight).Filed)
    (whole : engine.running = reqIds.reverse) :
    ∃ after, preemptAll reqIds engine = .ok after ∧
      Moves (view engine 0 flight) (view after 0 flight) := by
  induction reqIds generalizing engine with
  | nil => exact ⟨engine, rfl, .refl⟩
  | cons reqId rest ih =>
      have last : engine.running.dropLast = rest.reverse := by
        rw [whole, List.reverse_cons, List.dropLast_concat]
      have present : reqId ∈ engine.running := by
        rw [whole]
        exact List.mem_reverse.mpr List.mem_cons_self
      obtain ⟨request, found, ran⟩ :=
        (Filed.mem_running filed).mp (Multiset.mem_coe.mpr present)
      obtain rfl : reqId = request.requestId := (filed.ids reqId request found).symm
      obtain ⟨middle, done, moves, _, sameRunning, sameSkipped, _⟩ :=
        @preempt_request_moves Q { engine with running := engine.running.dropLast } engine.running
          (queued engine.skippedWaiting + 0) flight request _ true found ran
      have chain : Moves (view engine 0 flight) (view middle 0 flight) := by
        have distinct : engine.running.Nodup :=
          Multiset.coe_nodup.mp (Filed.running_nodup filed)
        have erased : engine.running.erase request.requestId = engine.running.dropLast := by
          refine (drop_last_eq_erase distinct ?_).symm
          rw [whole, List.reverse_cons, List.getLast?_concat]
        rw [Multiset.coe_erase, erased] at moves
        show Moves _ (deskOf middle middle.running _ _ _)
        rw [sameRunning, sameSkipped]
        exact moves
      obtain ⟨after, doneLater, later⟩ := ih (filed_moves filed chain) (sameRunning.trans last)
      refine ⟨after, ?_, chain.trans later⟩
      have asks : Engine.request { engine with running := engine.running.dropLast }
          request.requestId = .ok request := by
        unfold Engine.request
        dsimp only
        rw [show engine.requests.get? request.requestId = some request from found]
      unfold preemptAll
      simp only [asks, ok_bind, done]
      exact doneLater

/-- A reset raises only because its answer says that blocks are still held. -/
theorem reset_prefix_cache_leads (filed : (view engine 0 flight).Filed)
    (resetRunningRequests resetConnector : Bool) :
    Leads Move (fun problem => problem = .resetFailed) (view engine 0 flight)
      (fun after => view after 0 flight) (fun _ => True)
      (resetPrefixCache engine resetRunningRequests resetConnector) := by
  have ends : ∀ middle : Engine Q, Moves (view engine 0 flight) (view middle 0 flight) →
      Leads Move (fun problem => problem = .resetFailed) (view engine 0 flight)
        (fun after => view after 0 flight) (fun _ => True)
        (if resetRunningRequests = true ∧ (middle.query .resetPrefixCache).1.succeeds = false then
          Except.error EngineError.resetFailed
        else Except.ok (if resetConnector = true then
          (middle.query .resetPrefixCache).2.tell .resetConnectorCache
          else (middle.query .resetPrefixCache).2)) := by
    intro middle moves
    have asked : Moves (view engine 0 flight)
        (view (middle.query .resetPrefixCache).2 0 flight) :=
      moves.trans (told_moves rfl (fun _ serves => by cases serves))
    split
    · exact rfl
    · split
      · exact ⟨asked.trans (told_moves rfl (fun _ serves => by cases serves)), trivial⟩
      · exact ⟨asked, trivial⟩
  unfold resetPrefixCache
  cases resetRunningRequests with
  | true =>
      obtain ⟨middle, done, moves⟩ :=
        preempt_all_moves engine.running.reverse filed (List.reverse_reverse _).symm
      rw [done]
      exact ends middle moves
  | false => exact ends engine .refl

theorem draft_moves (filed : (view engine 0 flight).Filed) (reqId : ReqId)
    (specTokenIds : List Int) :
    Moves (view engine 0 flight)
      (view (updateDraftTokenIds engine reqId specTokenIds) 0 flight) := by
  unfold updateDraftTokenIds
  cases found : engine.requests.get? reqId with
  | none => exact .refl
  | some request =>
      obtain rfl : reqId = request.requestId := (filed.ids reqId request found).symm
      have drafts : ∀ tokens, Moves (view engine 0 flight)
          (view (engine.setRequest { request with specTokenIds := tokens }) 0 flight) :=
        fun tokens => set_moves found ⟨rfl, rfl, rfl, rfl⟩ rfl (filed.sessions _ request found)
      dsimp only
      split
      · exact .refl
      · split
        · exact drafts []
        · exact drafts specTokenIds

end Update

end KvOffload.EngineReports
