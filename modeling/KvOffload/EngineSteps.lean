import KvOffload.EngineAdmissions

/-!
# Steps as moves

A whole step of the scheduler is a chain of moves, at the end of which its requests are in flight;
what it hands out keeps within its limits, and none of its own assertions fails.
-/

namespace KvOffload.EngineSteps

open KvOffload KvOffload.Base KvOffload.EngineState KvOffload.EngineScheduling
open KvOffload.EnginePlaces KvOffload.EngineDesk KvOffload.EngineBudgets KvOffload.EngineMoves
open KvOffload.EngineAdmissions KvOffload.FallibleChains KvOffload.FiniteTotals

set_option autoImplicit false

variable {Q : Type} [LawfulRequestQueue Q] {engine : Engine Q} {flight : List InFlight}
  {pass : Pass} {budget : Int}

/-- The desk after the connector was told of the step; the finished ids are gone with it. -/
def sentView (engine : Engine Q) (flight : List InFlight) : Desk :=
  { view engine 0 flight with finishedReqIds := [] }

omit [LawfulRequestQueue Q] in
/-- A scheduled request in the step that was made last. -/
def inFlight (engine : Engine Q) (entry : ReqId × Int) : InFlight :=
  ⟨entry.1, entry.2, (engine.requests.get? entry.1).elim 0 Request.numPreemptions⟩

/-- What the end of a step leaves of the engine. -/
structure Advanced (before after : Engine Q) : Prop where
  config : after.config = before.config
  running : after.running = before.running
  epochs : ∀ reqId, (after.requests.get? reqId).elim 0 Request.numPreemptions =
    (before.requests.get? reqId).elim 0 Request.numPreemptions

omit [LawfulRequestQueue Q] in
theorem Advanced.inFlight_eq {before after : Engine Q} (advanced : Advanced before after) :
    inFlight after = inFlight before := by
  funext entry
  unfold inFlight
  rw [advanced.epochs]

theorem update_after_schedule_moves (entries : List (ReqId × Int))
    (filed : (sentView engine flight).Filed) (distinct : (entries.map Prod.fst).Nodup)
    (given : ∀ entry ∈ entries, entry.1 ∈ engine.running ∧ 0 < entry.2) :
    ∃ after, updateAfterSchedule engine entries = .ok after ∧
      Moves (sentView engine flight) (view after 0 (flight ++ entries.map (inFlight engine))) ∧
      Advanced engine after := by
  induction entries generalizing engine flight with
  | nil =>
      refine ⟨_, rfl, ?_, rfl, rfl, fun _ => rfl⟩
      rw [List.map_nil, List.append_nil]
      exact .refl
  | cons entry rest ih =>
      obtain ⟨present, positive⟩ := given entry List.mem_cons_self
      obtain ⟨request, found, ran⟩ :=
        (Filed.mem_running filed).mp (Multiset.mem_coe.mpr present)
      have own : request.requestId = entry.1 := filed.ids entry.1 request found
      have asks : engine.request entry.1 = .ok request := by
        unfold Engine.request
        rw [show engine.requests.get? entry.1 = some request from found]
      have lookedUp : engine.requests.get? (advance engine request entry.2).requestId =
          some request := own ▸ found
      have move := @Move.advanced (sentView engine flight) request (advance engine request entry.2)
        entry.2 lookedUp ran rfl positive rfl rfl rfl rfl
      have flown : inFlight engine entry =
          ⟨request.requestId, entry.2, request.numPreemptions⟩ := by
        unfold inFlight
        rw [show engine.requests.get? entry.1 = some request from found, own]
        rfl
      have later : Moves (sentView engine flight)
          (sentView (engine.setRequest (advance engine request entry.2))
            (flight ++ [inFlight engine entry])) := by
        rw [flown]
        exact .single move
      rw [List.map_cons, List.nodup_cons] at distinct
      have epochs : ∀ reqId, ((engine.setRequest (advance engine request entry.2)).requests.get?
          reqId).elim 0 Request.numPreemptions =
          (engine.requests.get? reqId).elim 0 Request.numPreemptions := by
        intro reqId
        show ((engine.requests.set request.requestId _).get? reqId).elim 0 _ = _
        rw [own, OrderedMap.get_set]
        split
        · rename_i same
          rw [same, show engine.requests.get? entry.1 = some request from found]
          rfl
        · rfl
      have again := @ih (engine.setRequest (advance engine request entry.2))
        (flight ++ [inFlight engine entry]) (filed_moves filed later) distinct.2
        (fun other member => given other (List.mem_cons_of_mem _ member))
      have sameFlight : inFlight (engine.setRequest (advance engine request entry.2)) =
          inFlight engine :=
        Advanced.inFlight_eq ⟨rfl, rfl, epochs⟩
      rw [sameFlight] at again
      obtain ⟨after, returned, moves, advanced⟩ := again
      refine ⟨after, ?_, ?_, advanced.config, advanced.running, fun reqId =>
        (advanced.epochs reqId).trans (epochs reqId)⟩
      · unfold updateAfterSchedule
        simp only [asks, ok_bind]
        exact returned
      · rw [List.map_cons, List.append_cons]
        exact later.trans moves

/-- What a step hands out. -/
structure Issued (config : EngineConfig) (pauseState : PauseState) (output : SchedulerOutput)
    (running : List ReqId) : Prop where
  scheduled : output.numScheduledTokens.keys.Perm (output.scheduledNewReqs ++
    output.scheduledResumedReqs ++ output.scheduledRunningReqs)
  positive : ∀ reqId tokens, output.numScheduledTokens.get? reqId = some tokens → 0 < tokens
  tokens : output.totalNumScheduledTokens ≤
    if pauseState = .pausedAll then 0 else config.maxNumScheduledTokens
  inputs : mapTotal output.numScheduledTokens (· + (config.draftSlots : Int)) ≤
    config.maxNumBatchedTokens
  running : ∀ reqId ∈ output.numScheduledTokens.keys, reqId ∈ running

/-- The requests of a step that stay in flight. -/
def stepFlight (result : SchedulerOutput × Engine Q) : List InFlight :=
  result.1.numScheduledTokens.entries.map (inFlight result.2)

/-- Blocks that were copied on write are held back; only calls and deferred blocks change. -/
theorem hold_copies_moves
    (asked : Moves (view engine 0 flight) (view (engine.query .takeBlockCopies).2 0 flight))
    (blocks : List Nat) :
    ∃ calls deferred, (if blocks = [] then (engine.query .takeBlockCopies).2
        else (engine.query .takeBlockCopies).2.freeCowRetainedBlocks blocks
          ((engine.query .takeBlockCopies).2.schedStepSeq + 1)) =
        { engine with calls := calls, deferredFrees := deferred } ∧
      Moves (view engine 0 flight)
        (view { engine with calls := calls, deferredFrees := deferred } 0 flight) := by
  split
  · exact ⟨_, _, rfl, asked⟩
  · have copied := @Move.copied (view (engine.query .takeBlockCopies).2 0 flight) blocks
    unfold Engine.freeCowRetainedBlocks
    split
    · rename_i now
      have due : (view (engine.query .takeBlockCopies).2 0 flight).config.deferBlockFree = false ∨
          (view (engine.query .takeBlockCopies).2 0 flight).schedSeq + 1 ≤
            (view (engine.query .takeBlockCopies).2 0 flight).processedSeq := now
      rw [if_pos due] at copied
      exact ⟨engine.calls ++ [EngineCall.takeBlockCopies] ++ [EngineCall.freeBlocks blocks],
        engine.deferredFrees, rfl,
        asked.tail copied⟩
    · rename_i later
      have early : ¬((view (engine.query .takeBlockCopies).2 0 flight).config.deferBlockFree =
          false ∨ (view (engine.query .takeBlockCopies).2 0 flight).schedSeq + 1 ≤
            (view (engine.query .takeBlockCopies).2 0 flight).processedSeq) := later
      rw [if_neg early] at copied
      exact ⟨engine.calls ++ [EngineCall.takeBlockCopies],
        engine.deferredFrees ++ [(engine.schedStepSeq + 1, blocks.reverse)], rfl,
        asked.tail copied⟩

theorem close_step_leads (filed : (view engine 0 flight).Filed)
    (scheduled : Scheduled engine budget pass) :
    Leads Move Answered (view engine 0 flight)
      (fun result => view result.2 0 (flight ++ stepFlight result))
      (fun result => result.1 = outputOf engine pass ∧ result.2.running = engine.running)
      (closeStep engine pass) := by
  have asked : Moves (view engine 0 flight) (view (engine.query .takeBlockCopies).2 0 flight) :=
    told_moves rfl (fun _ serves => by cases serves)
  unfold closeStep
  dsimp only
  obtain ⟨calls, deferred, held, holds⟩ := hold_copies_moves asked
    (engine.query .takeBlockCopies).1.blockIds
  rw [held]
  generalize kept :
    ({ engine with calls := calls, deferredFrees := deferred } : Engine Q) = next at *
  have frame : next.running = engine.running ∧ outputOf next pass = outputOf engine pass ∧
      next.config = engine.config := by
    rw [← kept]
    exact ⟨rfl, rfl, rfl⟩
  obtain ⟨sameRunning, sameOutput, sameConfig⟩ := frame
  have filedNow := filed_moves filed holds
  have live : ∀ reqId ∈ (outputOf next pass).numScheduledTokens.keys, ∃ request,
      (view next 0 flight).requests.get? reqId = some request ∧ request.isFinished = false := by
    intro reqId member
    have runs : reqId ∈ next.running := sameRunning ▸ scheduled.2 reqId member
    obtain ⟨request, found, ran⟩ := (Filed.mem_running filedNow).mp (Multiset.mem_coe.mpr runs)
    exact ⟨request, found, by rw [Request.isFinished, ran]; rfl⟩
  have sent := @Move.sent (view next 0 flight) (outputOf next pass) rfl live
  generalize counted : (if next.config.deferBlockFree = true ∧
      0 < (outputOf next pass).totalNumScheduledTokens then
    { (next.query (.buildConnectorMeta (outputOf next pass))).2 with
      schedStepSeq := next.schedStepSeq + 1 }
    else (next.query (.buildConnectorMeta (outputOf next pass))).2) = last
  have reached : last.running = next.running ∧
      Moves (view engine 0 flight) (sentView last flight) := by
    refine ⟨by rw [← counted]; split <;> rfl, holds.tail ?_⟩
    rw [← counted]
    split
    · rename_i more
      rw [show (if (view next 0 flight).config.deferBlockFree = true ∧
        0 < (outputOf next pass).totalNumScheduledTokens then (view next 0 flight).schedSeq + 1
        else (view next 0 flight).schedSeq) = next.schedStepSeq + 1 from if_pos more] at sent
      exact sent
    · rename_i same
      rw [show (if (view next 0 flight).config.deferBlockFree = true ∧
        0 < (outputOf next pass).totalNumScheduledTokens then (view next 0 flight).schedSeq + 1
        else (view next 0 flight).schedSeq) = next.schedStepSeq from if_neg same] at sent
      exact sent
  obtain ⟨lastRunning, chain⟩ := reached
  have given : ∀ entry ∈ (outputOf next pass).numScheduledTokens.entries,
      entry.1 ∈ last.running ∧ 0 < entry.2 := by
    intro entry member
    have listed := ((OrderedMap.get_eq_some_iff _ _ _).mpr member)
    rw [lastRunning, sameRunning]
    exact ⟨scheduled.2 entry.1 (List.mem_map_of_mem member),
      scheduled.1.positive entry.1 entry.2 listed⟩
  obtain ⟨after, returned, moves, advanced⟩ := update_after_schedule_moves
    (outputOf next pass).numScheduledTokens.entries (filed_moves filed chain)
    (OrderedMap.keys_nodup _) given
  have bound : (updateAfterSchedule last (outputOf next pass).numScheduledTokens.entries >>=
      fun after => Except.ok (outputOf next pass, after)) = .ok (outputOf next pass, after) := by
    rw [returned]
    rfl
  rw [← counted] at bound
  refine Leads.of_ok bound (chain.trans ?_)
    ⟨sameOutput, advanced.running.trans (lastRunning.trans sameRunning)⟩
  unfold stepFlight
  rw [advanced.inFlight_eq]
  exact moves

omit [LawfulRequestQueue Q] in
/-- What a balanced step hands out keeps within its limits. -/
theorem issued_of_scheduled {pauseState : PauseState}
    (scheduled : Scheduled engine (Pass.start engine.config pauseState).tokenBudget pass) :
    Issued engine.config pauseState (outputOf engine pass) engine.running := by
  have balanced := scheduled.1
  refine ⟨balanced.scheduled, balanced.positive, ?_, ?_, scheduled.2⟩
  · have tokens := balanced.tokens
    have left := balanced.tokensLeft
    rw [map_total_eq_sum, List.map_id'] at tokens
    change (pass.numScheduledTokens.entries.map Prod.snd).sum + _ =
      (if pauseState = .pausedAll then 0 else (engine.config.maxNumScheduledTokens : Int)) at tokens
    show (pass.numScheduledTokens.entries.map Prod.snd).sum ≤ _
    rw [Nat.cast_ite, Nat.cast_zero]
    omega
  · have inputs := balanced.inputs
    have left := balanced.inputsLeft
    show mapTotal pass.numScheduledTokens (· + (engine.config.draftSlots : Int)) ≤ _
    omega

/-- Where the running requests are caught up, a step raises only because of an answer. -/
theorem schedule_leads (filed : (view engine 0 flight).Filed)
    (caughtUp : ∀ reqId ∈ engine.running, ∀ request, engine.requests.get? reqId = some request →
      CaughtUp engine.config request) (throttlePrefills : Bool) :
    Leads Move Answered (view engine 0 flight)
      (fun result => view result.2 0 (flight ++ stepFlight result))
      (fun result => Issued engine.config engine.pauseState result.1 result.2.running)
      (schedule engine throttlePrefills) := by
  unfold schedule
  dsimp only
  generalize (throttlePrefills && !engine.prefillCapacityBound && _) = deferPrefills
  have cursor : Cursor { engine with currentStep := engine.currentStep + 1 }
      (Pass.start engine.config engine.pauseState).tokenBudget
      (Pass.start engine.config engine.pauseState) [] engine.running :=
    ⟨rfl, balanced_start _ _, nofun, ⟨rfl, rfl⟩, caughtUp⟩
  have filedNow : (view { engine with currentStep := engine.currentStep + 1 } 0 flight).Filed :=
    filed
  refine Leads.bind (schedule_running_leads deferPrefills engine.running.length cursor filedNow) ?_
  rintro ⟨middle, given⟩ early scheduled
  refine (admit_requests_leads deferPrefills (filed_moves filedNow early) scheduled).bind ?_
  rintro ⟨last, charged⟩ late scheduledLast
  have chain := Relation.ReflTransGen.trans early late
  have filedLast := filed_moves filedNow chain
  have sameConfig : last.config = engine.config := config_moves chain
  have limits : WithinLimits last charged := by
    refine scheduledLast.1.within_limits (sameConfig ▸ start_budget_le _ _) scheduledLast.2 ?_
    have within : (Multiset.card (last.running : Multiset ReqId) : Int) +
        last.numWaitingForStreamingInput ≤ last.config.maxNumRunningReqs := filedLast.within
    have nonneg : 0 ≤ last.numWaitingForStreamingInput := filedLast.streaming_nonneg
    rw [Multiset.coe_card] at within
    show last.running.length ≤ last.config.maxNumRunningReqs
    omega
  rw [if_pos limits]
  refine (close_step_leads filedLast scheduledLast).weaken ?_
  rintro ⟨output, after⟩ _ ⟨rfl, sameRunning⟩
  refine ⟨.refl, ?_⟩
  dsimp only at sameRunning ⊢
  rw [sameRunning, ← sameConfig]
  exact issued_of_scheduled (sameConfig ▸ scheduledLast)

end KvOffload.EngineSteps
