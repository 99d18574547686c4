import KvOffload.EngineReturns

/-!
# Outputs and new requests as moves

What the output of a step does to its requests, one after the other, and what happens to new
requests and to updates of a session.
-/

namespace KvOffload.EngineUpdates

open KvOffload KvOffload.Base KvOffload.EngineState KvOffload.EngineScheduling
open KvOffload.EngineOutputs KvOffload.EnginePlaces KvOffload.EngineDesk KvOffload.EngineMoves
open KvOffload.EngineAccounts KvOffload.EngineReturns KvOffload.FallibleChains

set_option autoImplicit false

variable {Q : Type} {engine : Engine Q} {request : Request} {flight : List InFlight}

theorem set_set_of_present {requests : OrderedMap ReqId Request} {reqId : ReqId}
    (present : requests.get? reqId ≠ none) (first second : Request) :
    (requests.set reqId first).set reqId second = requests.set reqId second := by
  have still : (requests.set reqId first).get? reqId ≠ none := by
    rw [OrderedMap.get_set_self]
    exact Option.some_ne_none first
  apply OrderedMap.ext_entries
  rw [OrderedMap.set, dif_neg still, OrderedMap.set, dif_neg present, OrderedMap.set,
    dif_neg present]
  simp only [OrderedMap.modify, assocModify, List.map_map]
  apply List.map_congr_left
  intro entry _
  by_cases same : entry.1 = reqId
  · simp [same]
  · simp [same]

section Sessions

variable [LawfulRequestQueue Q]

theorem queued_add (queue : Q) (request : Request) :
    queued (RequestQueue.add queue request) = request.requestId ::ₘ queued queue :=
  Multiset.coe_eq_coe.mpr (LawfulRequestQueue.items_add queue request)

/-- A request as a client hands it in. -/
structure NewRequest (request : Request) : Prop where
  status : request.status = .waiting ∨ request.status = .waitingForStructuredOutputGrammar
  unscheduled : request.numInFlightTokens = 0 ∧ request.numStaleOutputTokens = 0 ∧
    request.lastSchedSeq = 0

/-- A client does not use an id again, and updates sessions only. -/
structure Addable (engine : Engine Q) (request : Request) : Prop where
  fresh : engine.requests.get? request.requestId = none →
    NewRequest request ∧ EngineCall.onNewRequest request.requestId ∉ engine.calls
  session : ∀ existing, engine.requests.get? request.requestId = some existing →
    existing.status ≠ .waitingForStreamingReq → existing.streamingQueue ≠ none

theorem new_request_moves (new : NewRequest request)
    (fresh : engine.requests.get? request.requestId = none)
    (unknown : EngineCall.onNewRequest request.requestId ∉ engine.calls) :
    Moves (view engine 0 flight)
      (view (((engine.enqueueWaitingRequest request).setRequest request).tell
        (.onNewRequest request.requestId)) 0 flight) := by
  have facts : waits request = 1 ∧ request.status ≠ .waitingForStreamingReq := by
    rcases new.status with status | status
    · simp [waits, Request.isFinished, RequestStatus.isFinished, status]
    · simp [waits, Request.isFinished, RequestStatus.isFinished, status]
  unfold Engine.enqueueWaitingRequest
  split
  · have added := @Move.added (view engine 0 flight) request (queued engine.waiting)
      (request.requestId ::ₘ (queued engine.skippedWaiting + 0)) fresh facts.1 facts.2
      (.inr ⟨rfl, rfl⟩) unknown new.unscheduled
    refine .single ?_
    show Move _ (deskOf _ engine.running (queued engine.waiting)
      (queued (RequestQueue.add engine.skippedWaiting request) + 0) flight)
    rw [queued_add, Multiset.cons_add]
    exact added
  · rename_i unblocked
    have added := @Move.added (view engine 0 flight) request
      (request.requestId ::ₘ queued engine.waiting) (queued engine.skippedWaiting + 0) fresh
      facts.1 facts.2 (.inl ⟨Bool.eq_false_iff.mpr unblocked, rfl, rfl⟩) unknown new.unscheduled
    refine .single ?_
    show Move _ (deskOf _ engine.running (queued (RequestQueue.add engine.waiting request))
      (queued engine.skippedWaiting + 0) flight)
    rw [queued_add]
    exact added

theorem add_request_moves (filed : (view engine 0 flight).Filed) (addable : Addable engine request)
    (update : Option StreamingUpdate) :
    ∃ after, addRequest engine request update = .ok after ∧
      Moves (view engine 0 flight) (view after 0 flight) := by
  unfold addRequest
  cases found : engine.requests.get? request.requestId with
  | none =>
      obtain ⟨new, unknown⟩ := addable.fresh found
      dsimp only
      split
      · have newSession : NewRequest { request with streamingQueue := some [] } :=
          ⟨new.status, new.unscheduled⟩
        exact ⟨_, rfl, new_request_moves newSession found unknown⟩
      · exact ⟨_, rfl, new_request_moves new found unknown⟩
  | some existing =>
      have own : existing.requestId = request.requestId := filed.ids _ existing found
      have lookedUp : engine.requests.get? existing.requestId = some existing := own ▸ found
      dsimp only
      split
      · rename_i elsewhere
        cases queue : existing.streamingQueue with
        | none => exact absurd queue (addable.session existing found elsewhere)
        | some updates =>
            have edited := @Move.edited (view engine 0 flight) existing
              { existing with streamingQueue := some (updates ++ [update]) } lookedUp
              ⟨rfl, rfl, rfl, rfl⟩ rfl (fun streaming => absurd streaming elsewhere)
            exact ⟨_, rfl, .single edited⟩
      · rename_i here
        have streaming : existing.status = .waitingForStreamingReq := not_not.mp here
        cases update with
        | none => exact finish_requests_moves filed _ _
        | some update =>
            have weight : streams existing = 1 := if_pos streaming
            have waitsBefore : waits existing = 1 := by
              simp [waits, streaming, Request.isFinished, RequestStatus.isFinished]
            have requeued := @Move.requeued (view engine 0 flight) existing
              (updatedSession existing update) (engine.numWaitingForStreamingInput - 1) lookedUp
              ⟨rfl, rfl, rfl, rfl⟩ waitsBefore rfl (fun blocked => by cases blocked)
              (fun rests => by cases rests)
              (by
                rw [weight, show streams (updatedSession existing update) = 0 from rfl, add_zero]
                exact Int.sub_add_cancel _ _)
              (Int.sub_le_self _ (by decide))
            refine ⟨_, rfl, .single ?_⟩
            unfold updateRequestAsSession
            rw [if_pos streaming]
            exact requeued

end Sessions

section Tokens

variable {config : EngineConfig} {output : ModelRunnerOutput}

/-- What the tokens of a step leave of a request. -/
structure Carried (old request : Request) : Prop where
  own : request.requestId = old.requestId
  account : SameAccount old request
  queue : request.streamingQueue = old.streamingQueue
  resumable : request.resumable = true → old.resumable = true

theorem Carried.refl (request : Request) : Carried request request :=
  ⟨rfl, ⟨rfl, rfl, rfl, rfl⟩, rfl, id⟩

theorem Carried.trans {first second third : Request} (early : Carried first second)
    (late : Carried second third) : Carried first third :=
  ⟨late.own.trans early.own, ⟨late.account.inFlight.trans early.account.inFlight,
    late.account.stale.trans early.account.stale, late.account.epoch.trans early.account.epoch,
    late.account.seq.trans early.account.seq⟩, late.queue.trans early.queue,
    fun resumes => early.resumable (late.resumable resumes)⟩

/-- A request that goes on keeps its status, and one that stops gets a last one. -/
def Outcome (old : Request) (result : Request × Bool) : Prop :=
  Carried old result.1 ∧ (result.2 = false → result.1.status = old.status ∧
    result.1.resumable = old.resumable) ∧ (result.2 = true → result.1.isFinished = true)

theorem append_outputs_outcome (tokens : List Int) (request : Request) :
    Outcome request (appendOutputs config tokens request) := by
  induction tokens generalizing request with
  | nil => exact ⟨Carried.refl request, fun _ => ⟨rfl, rfl⟩, nofun⟩
  | cons token rest ih =>
      unfold appendOutputs
      dsimp only
      split
      · exact ⟨⟨rfl, ⟨rfl, rfl, rfl, rfl⟩, rfl, id⟩, nofun, fun _ => rfl⟩
      · have later := ih { request with
          allTokenIds := request.allTokenIds ++ [token]
          outputTokenIds := request.outputTokenIds ++ [token] }
        have grown : Carried request { request with
            allTokenIds := request.allTokenIds ++ [token]
            outputTokenIds := request.outputTokenIds ++ [token] } :=
          ⟨rfl, ⟨rfl, rfl, rfl, rfl⟩, rfl, id⟩
        exact ⟨grown.trans later.1, later.2⟩

theorem take_tokens_outcome (request : Request) :
    Outcome request (takeTokens config output request) := by
  unfold takeTokens
  generalize taken : (if output.sampledTokenIds request.requestId ≠ [] then
      appendOutputs config (output.sampledTokenIds request.requestId) request
    else if output.pooled request.requestId = true then
      (request.withStatus (.finished .stopped), true)
    else (request, false)) = result
  have outcome : Outcome request result := by
    rw [← taken]
    split
    · exact append_outputs_outcome _ request
    · split
      · exact ⟨⟨rfl, ⟨rfl, rfl, rfl, rfl⟩, rfl, id⟩, nofun, fun _ => rfl⟩
      · exact ⟨Carried.refl request, fun _ => ⟨rfl, rfl⟩, nofun⟩
  obtain ⟨after, stopped⟩ := result
  dsimp only
  rw [taken]
  dsimp only
  split
  · exact ⟨outcome.1.trans ⟨rfl, ⟨rfl, rfl, rfl, rfl⟩, rfl, nofun⟩, nofun, fun _ => rfl⟩
  · exact outcome

theorem roll_back_carried (numDrafted numSampled : Nat) (isStale : Bool) (request : Request) :
    Carried request (rollBack config numDrafted numSampled isStale request) ∧
      (rollBack config numDrafted numSampled isStale request).status = request.status ∧
      (rollBack config numDrafted numSampled isStale request).resumable = request.resumable := by
  unfold rollBack
  split
  · exact ⟨Carried.refl request, rfl, rfl⟩
  · exact ⟨⟨rfl, ⟨rfl, rfl, rfl, rfl⟩, rfl, id⟩, rfl, rfl⟩

/-- The assertion on the stale tokens holds where there are enough of them. -/
theorem drain_ok {flown : InFlight} (request : Request) {numTokens : Int}
    (tokens : flown.tokens = numTokens)
    (enough : 0 < request.numStaleOutputTokens → numTokens ≤ request.numStaleOutputTokens) :
    ∃ drained isStale, drain request numTokens = .ok (drained, isStale) ∧
      Drained flown request drained ∧ drained.requestId = request.requestId ∧
      drained.status = request.status ∧ drained.resumable = request.resumable ∧
      drained.streamingQueue = request.streamingQueue := by
  unfold drain
  dsimp only
  split
  · rename_i some
    have covered := enough some
    rw [if_neg (by omega)]
    exact ⟨_, _, rfl, ⟨by rw [tokens], by rw [if_pos some, tokens], rfl, rfl⟩, rfl, rfl, rfl, rfl⟩
  · rename_i none
    exact ⟨_, _, rfl, ⟨by rw [tokens], by rw [if_neg none], rfl, rfl⟩, rfl, rfl, rfl, rfl⟩

end Tokens

section Stops

variable [LawfulRequestQueue Q] {progress : Progress Q} {rest : List InFlight}

/-- While outputs are taken, the stopped requests have left their places already. -/
def progressDesk (progress : Progress Q) (flight : List InFlight) : Desk :=
  deskOf progress.engine
    ((progress.engine.running : Multiset ReqId).filter fun reqId =>
      reqId ∉ progress.stoppedRunning)
    ((queued progress.engine.waiting).filter fun reqId => reqId ∉ progress.stoppedPreempted)
    ((queued progress.engine.skippedWaiting).filter fun reqId =>
      reqId ∉ progress.stoppedPreempted) flight

omit [LawfulRequestQueue Q] in
theorem filter_snoc {queue : Multiset ReqId} {stopped : List ReqId}
    (distinct : (queue.filter fun reqId => reqId ∉ stopped).Nodup) (last : ReqId) :
    (queue.filter fun reqId => reqId ∉ stopped ++ [last]) =
      (queue.filter fun reqId => reqId ∉ stopped).erase last := by
  rw [Multiset.ext]
  intro reqId
  have once := Multiset.nodup_iff_count_le_one.mp distinct reqId
  by_cases same : reqId = last
  · subst same
    rw [Multiset.count_erase_self, Multiset.count_filter, if_neg (by simp)]
    omega
  · rw [Multiset.count_erase_of_ne same, Multiset.count_filter, Multiset.count_filter]
    simp [same]

/-- Where a stopped request is noted. -/
def noted (progress : Progress Q) (engine : Engine Q) (before : RequestStatus) (reqId : ReqId) :
    Progress Q :=
  if before = .running then
    ⟨engine, progress.stoppedRunning ++ [reqId], progress.stoppedPreempted⟩
  else ⟨engine, progress.stoppedRunning, progress.stoppedPreempted ++ [reqId]⟩

/-- A stopped request that is finished is reported and released. -/
theorem finish_stopped_moves {old : Request} (filed : (progressDesk progress rest).Filed)
    (found : progress.engine.requests.get? request.requestId = some old)
    (account : SameAccount old request) (unfinished : old.isFinished = false)
    (ended : request.isFinished = true)
    (ordinary : old.status ≠ .running → old.resumable = false) :
    ∃ after, freeRequest (progress.engine.setRequest request) request false = .ok after ∧
      Moves (progressDesk progress rest)
        (progressDesk (noted progress after old.status request.requestId) rest) ∧
      ∀ other, other ≠ request.requestId →
        after.requests.get? other = progress.engine.requests.get? other := by
  have here : (progress.engine.setRequest request).requests.get? request.requestId =
      some request := OrderedMap.get_set_self _ _ _
  have nodups := @queues_nodup Q progress.engine _ _ _ progress.engine.numWaitingForStreamingInput
    rest filed
  by_cases ran : old.status = .running
  · have move := @Move.stopped (progressDesk progress rest) old request found account ran ended
    obtain ⟨after, done, released, moves⟩ := @free_request_moves Q
      (progress.engine.setRequest request) request
      ((progressDesk progress rest).running.erase request.requestId)
      (progressDesk progress rest).waiting (progressDesk progress rest).skipped
      progress.engine.numWaitingForStreamingInput rest here ended false
    refine ⟨after, done, ?_, fun other differs =>
      (released.others other differs).trans (OrderedMap.get_set_of_ne _ _ differs)⟩
    have last : progressDesk (noted progress after old.status request.requestId) rest =
        placed after ((progressDesk progress rest).running.erase request.requestId)
          (progressDesk progress rest).waiting (progressDesk progress rest).skipped
          progress.engine.numWaitingForStreamingInput rest := by
      unfold noted
      rw [if_pos ran]
      unfold progressDesk deskOf placed
      dsimp only
      rw [released.running, released.waiting, released.skippedWaiting, released.streaming]
      show _ = Desk.place _ _ _ _ _
      rw [← filter_snoc nodups.1]
      rfl
    rw [last]
    exact .head move moves
  · have notStreaming : streams old = 0 := if_neg fun streaming => by
      have rested := (filed.sessions request.requestId old found streaming).1
      rw [ordinary ran] at rested
      cases rested
    have move := @Move.ended (progressDesk progress rest) old request found account
      (if_pos ⟨ran, unfinished⟩) ended
    rw [notStreaming, sub_zero] at move
    obtain ⟨after, done, released, moves⟩ := @free_request_moves Q
      (progress.engine.setRequest request) request (progressDesk progress rest).running
      ((progressDesk progress rest).waiting.erase request.requestId)
      ((progressDesk progress rest).skipped.erase request.requestId)
      progress.engine.numWaitingForStreamingInput rest here ended false
    refine ⟨after, done, ?_, fun other differs =>
      (released.others other differs).trans (OrderedMap.get_set_of_ne _ _ differs)⟩
    have last : progressDesk (noted progress after old.status request.requestId) rest =
        placed after (progressDesk progress rest).running
          ((progressDesk progress rest).waiting.erase request.requestId)
          ((progressDesk progress rest).skipped.erase request.requestId)
          progress.engine.numWaitingForStreamingInput rest := by
      unfold noted
      rw [if_neg ran]
      unfold progressDesk deskOf placed
      dsimp only
      rw [released.running, released.waiting, released.skippedWaiting, released.streaming]
      show _ = Desk.place _ _ _ _ _
      rw [← filter_snoc nodups.2.1, ← filter_snoc nodups.2.2]
      rfl
    rw [last]
    exact .head move moves

/-- What a stop leaves of the loop over the outputs. -/
structure Stopped (before after : Progress Q) (reqId : ReqId) : Prop where
  running : ∀ other ∈ after.stoppedRunning, other ∈ before.stoppedRunning ∨ other = reqId
  preempted : ∀ other ∈ after.stoppedPreempted, other ∈ before.stoppedPreempted ∨ other = reqId
  others : ∀ other, other ≠ reqId →
    after.engine.requests.get? other = before.engine.requests.get? other

omit [LawfulRequestQueue Q] in
theorem noted_stopped {after : Engine Q} {before : RequestStatus} {reqId : ReqId}
    (others : ∀ other, other ≠ reqId →
      after.requests.get? other = progress.engine.requests.get? other) :
    Stopped progress (noted progress after before reqId) reqId := by
  unfold noted
  split
  · exact ⟨fun other member => (List.mem_append.mp member).imp_right List.mem_singleton.mp,
      fun other member => .inl member, others⟩
  · exact ⟨fun other member => .inl member,
      fun other member => (List.mem_append.mp member).imp_right List.mem_singleton.mp, others⟩

/-- A session that stops to run goes over to a queue. -/
theorem session_moves {old : Request} {after : Engine Q} {next : Request}
    (filed : (progressDesk progress rest).Filed) (own : next.requestId = old.requestId)
    (ran : old.status = .running)
    (move : Move (progressDesk progress rest) (deskOf after
      ((progressDesk progress rest).running.erase old.requestId)
      ((queued after.waiting).filter fun reqId => reqId ∉ progress.stoppedPreempted)
      ((queued after.skippedWaiting).filter fun reqId => reqId ∉ progress.stoppedPreempted) rest))
    (sameRunning : after.running = progress.engine.running) :
    Moves (progressDesk progress rest)
      (progressDesk (noted progress after old.status next.requestId) rest) := by
  have nodups := @queues_nodup Q progress.engine _ _ _ progress.engine.numWaitingForStreamingInput
    rest filed
  unfold noted
  rw [if_pos ran, own]
  refine .single ?_
  show Move _ (deskOf after ((after.running : Multiset ReqId).filter fun reqId =>
    reqId ∉ progress.stoppedRunning ++ [old.requestId]) _ _ rest)
  rw [sameRunning, filter_snoc nodups.1]
  exact move

omit [LawfulRequestQueue Q] in
/-- Setting the request once more forgets what was set before. -/
theorem set_request_again {engine : Engine Q} {next : Request}
    (present : engine.requests.get? request.requestId ≠ none)
    (own : next.requestId = request.requestId) :
    (engine.setRequest request).setRequest next = engine.setRequest next := by
  unfold Engine.setRequest
  dsimp only
  rw [own, set_set_of_present present]

omit [LawfulRequestQueue Q] in
theorem note_ok (after : Engine Q) (before : RequestStatus) {next : Request}
    (own : next.requestId = request.requestId) :
    (if before = .running then
      Except.ok ⟨after, progress.stoppedRunning ++ [next.requestId], progress.stoppedPreempted⟩
    else Except.ok ⟨after, progress.stoppedRunning,
      progress.stoppedPreempted ++ [next.requestId]⟩ : Except EngineError (Progress Q)) =
      .ok (noted progress after before request.requestId) := by
  unfold noted
  rw [own]
  split
  · rfl
  · rfl

/-- A request that stops for good, as the scheduler handles it. -/
theorem ending_moves {engine : Engine Q} {old next : Request}
    (filed : (progressDesk progress rest).Filed)
    (found : progress.engine.requests.get? request.requestId = some old)
    (handled : handleStoppedRequest engine request =
      (true, next, progress.engine.setRequest next))
    (own : next.requestId = request.requestId) (account : SameAccount old next)
    (unfinished : old.isFinished = false) (ended : next.isFinished = true)
    (ordinary : old.status ≠ .running → old.resumable = false) :
    ∃ after, stopRequest { progress with engine := engine } old.status request = .ok after ∧
      Moves (progressDesk progress rest) (progressDesk after rest) ∧
      Stopped progress after request.requestId := by
  have foundNext : progress.engine.requests.get? next.requestId = some old := own ▸ found
  obtain ⟨after, done, moves, others⟩ := finish_stopped_moves filed foundNext account unfinished
    ended ordinary
  rw [own] at moves others
  refine ⟨_, ?_, moves, noted_stopped others⟩
  unfold stopRequest
  rw [handled]
  show (freeRequest (progress.engine.setRequest next) next false >>= _) = _
  rw [done, ok_bind]
  exact note_ok after old.status own

/-- A session that goes on after its stop, as the scheduler handles it. -/
theorem continuing_moves {engine after : Engine Q} {old next : Request}
    (filed : (progressDesk progress rest).Filed) (ran : old.status = .running)
    (handled : handleStoppedRequest engine request = (false, next, after))
    (own : next.requestId = request.requestId) (same : request.requestId = old.requestId)
    (move : Move (progressDesk progress rest) (deskOf after
      ((progressDesk progress rest).running.erase old.requestId)
      ((queued after.waiting).filter fun reqId => reqId ∉ progress.stoppedPreempted)
      ((queued after.skippedWaiting).filter fun reqId => reqId ∉ progress.stoppedPreempted) rest))
    (sameRunning : after.running = progress.engine.running)
    (others : ∀ other, other ≠ request.requestId →
      after.requests.get? other = progress.engine.requests.get? other) :
    ∃ after, stopRequest { progress with engine := engine } old.status request = .ok after ∧
      Moves (progressDesk progress rest) (progressDesk after rest) ∧
      Stopped progress after request.requestId := by
  have moves := session_moves filed (own.trans same) ran move sameRunning
  rw [own] at moves
  refine ⟨_, ?_, moves, noted_stopped others⟩
  unfold stopRequest
  rw [handled]
  exact note_ok after old.status own

theorem stop_request_moves {old : Request} (filed : (progressDesk progress rest).Filed)
    (found : progress.engine.requests.get? request.requestId = some old)
    (carried : Carried old request) (unfinished : old.isFinished = false)
    (ended : request.isFinished = true)
    (ordinary : old.status ≠ .running → old.resumable = false)
    (unstopped : request.requestId ∉ progress.stoppedPreempted) :
    ∃ after, stopRequest { progress with engine := progress.engine.setRequest request }
        old.status request = .ok after ∧
      Moves (progressDesk progress rest) (progressDesk after rest) ∧
      Stopped progress after request.requestId := by
  have present : progress.engine.requests.get? request.requestId ≠ none := by
    rw [found]
    exact Option.some_ne_none old
  cases resumes : request.resumable with
  | false =>
      have handled : handleStoppedRequest (progress.engine.setRequest request) request =
          (true, request, progress.engine.setRequest request) := by
        unfold handleStoppedRequest
        rw [if_pos resumes]
      exact ending_moves filed found handled rfl carried.account unfinished ended ordinary
  | true =>
      have resumable : old.resumable = true := carried.resumable resumes
      have ran : old.status = .running := by
        by_contra elsewhere
        rw [ordinary elsewhere] at resumable
        cases resumable
      have differs : ¬request.resumable = false := by
        rw [resumes]
        decide
      have kept : ∀ ids : Multiset ReqId, (request.requestId ::ₘ ids).filter
          (fun reqId => reqId ∉ progress.stoppedPreempted) = request.requestId ::ₘ
            ids.filter fun reqId => reqId ∉ progress.stoppedPreempted :=
        fun _ => Multiset.filter_cons_of_pos _ unstopped
      cases queue : request.streamingQueue.getD [] with
      | nil =>
          have handled : handleStoppedRequest (progress.engine.setRequest request) request =
              (false, request.withStatus .waitingForStreamingReq,
                Engine.enqueueWaitingRequest
                  { (progress.engine.setRequest request).setRequest
                      (request.withStatus .waitingForStreamingReq) with
                    numWaitingForStreamingInput :=
                      progress.engine.numWaitingForStreamingInput + 1 }
                  (request.withStatus .waitingForStreamingReq)) := by
            unfold handleStoppedRequest
            rw [if_neg differs, queue]
            rfl
          rw [@set_request_again Q _ _ (request.withStatus .waitingForStreamingReq) present rfl]
            at handled
          refine continuing_moves filed ran handled rfl carried.own ?_ rfl fun other unlike =>
            OrderedMap.get_set_of_ne _ _ unlike
          have move := @Move.paused (progressDesk progress rest) old
            (request.withStatus .waitingForStreamingReq) found
            ⟨carried.account.inFlight, carried.account.stale, carried.account.epoch,
              carried.account.seq⟩ ran rfl (fun _ => ⟨resumes, queue⟩)
          show Move _ (deskOf _ _ _ (Multiset.filter _ (queued (RequestQueue.add
            progress.engine.skippedWaiting (request.withStatus .waitingForStreamingReq)))) rest)
          rw [queued_add]
          erw [kept]
          rw [← carried.own]
          exact move
      | cons head more =>
          cases head with
          | none =>
              have handled : handleStoppedRequest (progress.engine.setRequest request) request =
                  (true, { request with streamingQueue := some more },
                    (progress.engine.setRequest request).setRequest
                      { request with streamingQueue := some more }) := by
                unfold handleStoppedRequest
                rw [if_neg differs, queue]
              rw [@set_request_again Q _ _ { request with streamingQueue := some more } present rfl]
                at handled
              exact ending_moves filed found handled rfl
                ⟨carried.account.inFlight, carried.account.stale, carried.account.epoch,
                  carried.account.seq⟩ unfinished ended ordinary
          | some update =>
              have notStreaming : ¬request.status = .waitingForStreamingReq :=
                (status_of_finished ended).2
              have handled : handleStoppedRequest (progress.engine.setRequest request) request =
                  (false, updatedSession { request with streamingQueue := some more } update,
                    Engine.enqueueWaitingRequest
                      { (progress.engine.setRequest request).setRequest
                          (updatedSession { request with streamingQueue := some more } update) with
                        numWaitingForStreamingInput :=
                          progress.engine.numWaitingForStreamingInput - 0 }
                      (updatedSession { request with streamingQueue := some more } update)) := by
                unfold handleStoppedRequest updateRequestAsSession
                rw [if_neg differs, queue]
                dsimp only
                rw [if_neg notStreaming]
                rfl
              rw [@set_request_again Q _ _
                  (updatedSession { request with streamingQueue := some more } update) present rfl,
                sub_zero] at handled
              refine continuing_moves filed ran handled rfl carried.own ?_ rfl fun other unlike =>
                OrderedMap.get_set_of_ne _ _ unlike
              have move := @Move.continued (progressDesk progress rest) old
                (updatedSession { request with streamingQueue := some more } update) found
                ⟨carried.account.inFlight, carried.account.stale, carried.account.epoch,
                  carried.account.seq⟩ ran rfl
              show Move _ (deskOf _ _ (Multiset.filter _ (queued (RequestQueue.add
                progress.engine.waiting
                (updatedSession { request with streamingQueue := some more } update)))) _ rest)
              rw [queued_add]
              erw [kept]
              rw [← carried.own]
              exact move

/-- The output of a step for one request. -/
theorem update_request_moves {entry : ReqId × Int} {flown : InFlight}
    (filed : (progressDesk progress (flown :: rest)).Filed)
    (accounted : Accounted (progressDesk progress (flown :: rest)))
    (own : flown.reqId = entry.1) (tokens : flown.tokens = entry.2)
    (ordinary : ∀ request, progress.engine.requests.get? entry.1 = some request →
      request.status ≠ .running → request.isFinished = false → request.resumable = false)
    (unstopped : entry.1 ∉ progress.stoppedPreempted)
    (output : SchedulerOutput) (result : ModelRunnerOutput) (failed : List ReqId) :
    ∃ after, updateRequest output result failed progress entry = .ok after ∧
      Moves (progressDesk progress (flown :: rest)) (progressDesk after rest) ∧
      Stopped progress after entry.1 := by
  obtain ⟨reqId, numTokens⟩ := entry
  dsimp only at own tokens ordinary unstopped ⊢
  have positive := accounted.positive flown List.mem_cons_self
  unfold updateRequest
  dsimp only
  rw [if_neg (by omega)]
  cases found : progress.engine.requests.get? reqId with
  | none =>
      have gone : (progressDesk progress (flown :: rest)).requests.get? flown.reqId = none :=
        own ▸ found
      exact ⟨progress, rfl, .single (.passed rfl gone),
        ⟨fun _ member => .inl member, fun _ member => .inl member, fun _ _ => rfl⟩⟩
  | some request =>
      have isOwn : request.requestId = reqId := filed.ids reqId request found
      have lookedUp : (progressDesk progress (flown :: rest)).requests.get? flown.reqId =
          some request := own ▸ found
      have arrived := accounted.arrived rfl lookedUp
      have nonneg := @owed_nonneg rest flown.reqId request.numPreemptions fun other member =>
        accounted.positive other (List.mem_cons_of_mem _ member)
      have enough : 0 < request.numStaleOutputTokens →
          numTokens ≤ request.numStaleOutputTokens := by
        intro some
        rw [if_pos some] at arrived
        omega
      obtain ⟨drained, isStale, drainedOk, share, sameId, sameStatus, sameResumable, sameQueue⟩ :=
        drain_ok request tokens enough
      have drainedOwn : drained.requestId = reqId := sameId.trans isOwn
      have rested : Rested drained := by
        intro streaming
        rw [sameResumable, sameQueue]
        exact filed.sessions reqId request found (sameStatus ▸ streaming)
      have foundDrained : progress.engine.requests.get? drained.requestId = some request :=
        drainedOwn ▸ found
      have move := @Move.drained (progressDesk progress (flown :: rest)) request drained flown rest
        rfl (own.trans drainedOwn.symm) foundDrained sameStatus rested share
      have filedNow : (progressDesk
          { progress with engine := progress.engine.setRequest drained } rest).Filed :=
        filed_move filed move
      have here : (progress.engine.setRequest drained).requests.get? drained.requestId =
          some drained := OrderedMap.get_set_self _ _ _
      have others : ∀ other, other ≠ reqId →
          (progress.engine.setRequest drained).requests.get? other =
            progress.engine.requests.get? other := fun other differs =>
        OrderedMap.get_set_of_ne _ _ (drainedOwn ▸ differs)
      dsimp only
      rw [drainedOk, ok_bind]
      dsimp only
      split
      · exact ⟨_, rfl, .single move,
          ⟨fun _ member => .inl member, fun _ member => .inl member, others⟩⟩
      · rename_i goesOn
        have unfinished : drained.isFinished = false := by
          by_contra ended
          exact goesOn (.inr (.inl (by simpa using ended)))
        obtain ⟨rolled, rolledStatus, rolledResumable⟩ := @roll_back_carried
          (progress.engine.setRequest drained).config
          ((output.scheduledSpecDecodeTokens.get? reqId).getD []).length
          (result.sampledTokenIds reqId).length isStale drained
        generalize rollBack _ _ _ isStale drained = back at rolled rolledStatus rolledResumable ⊢
        have outcome := @take_tokens_outcome (progress.engine.setRequest drained).config result back
        generalize takeTokens _ result back = taken at outcome ⊢
        obtain ⟨last, stopped⟩ := taken
        obtain ⟨carriedLast, keeps, ends⟩ := outcome
        have carried := rolled.trans carriedLast
        have foundLast : (progress.engine.setRequest drained).requests.get? last.requestId =
            some drained := carried.own ▸ here
        cases stopped with
        | true =>
            have usual : drained.status ≠ .running → drained.resumable = false := by
              intro elsewhere
              rw [sameResumable]
              exact ordinary request found (sameStatus ▸ elsewhere) (by
                rw [Request.isFinished, ← sameStatus]
                exact unfinished)
            have unstoppedLast : last.requestId ∉ progress.stoppedPreempted := by
              rw [carried.own, drainedOwn]
              exact unstopped
            obtain ⟨after, done, moves, stops⟩ := @stop_request_moves Q last _
              { progress with engine := progress.engine.setRequest drained } rest drained filedNow
              foundLast carried unfinished (ends rfl) usual unstoppedLast
            rw [rolledStatus]
            refine ⟨after, done, .head move moves, ?_⟩
            rw [carried.own, drainedOwn] at stops
            exact ⟨stops.running, stops.preempted, fun other differs =>
              (stops.others other differs).trans (others other differs)⟩
        | false =>
            obtain ⟨lastStatus, lastResumable⟩ := keeps rfl
            have restedLast : Rested last := by
              intro streaming
              have before := rested (rolledStatus ▸ lastStatus ▸ streaming)
              rw [lastResumable, rolledResumable, carried.queue]
              exact before
            have edited := @Move.edited (progressDesk
              { progress with engine := progress.engine.setRequest drained } rest) drained last
              foundLast carried.account (lastStatus.trans rolledStatus) restedLast
            refine ⟨_, rfl, .head move (.single edited),
              ⟨fun _ member => .inl member, fun _ member => .inl member, fun other differs => ?_⟩⟩
            refine (OrderedMap.get_set_of_ne _ _ ?_).trans (others other differs)
            rw [carried.own, drainedOwn]
            exact differs

/-- The outputs of a step, one request after the other. -/
theorem update_requests_moves (entries : List (ReqId × Int)) (own : List InFlight)
    (filed : (progressDesk progress (own ++ rest)).Filed)
    (accounted : Accounted (progressDesk progress (own ++ rest)))
    (same : own.map (fun flown => (flown.reqId, flown.tokens)) = entries)
    (distinct : (entries.map Prod.fst).Nodup)
    (ordinary : ∀ entry ∈ entries, ∀ request,
      progress.engine.requests.get? entry.1 = some request → request.status ≠ .running →
      request.isFinished = false → request.resumable = false)
    (unstopped : ∀ entry ∈ entries, entry.1 ∉ progress.stoppedPreempted)
    (output : SchedulerOutput) (result : ModelRunnerOutput) (failed : List ReqId) :
    ∃ after, updateRequests output result failed entries progress = .ok after ∧
      Moves (progressDesk progress (own ++ rest)) (progressDesk after rest) := by
  induction entries generalizing progress own with
  | nil =>
      rw [List.map_eq_nil_iff.mp same]
      exact ⟨progress, rfl, .refl⟩
  | cons entry later ih =>
      cases own with
      | nil => cases same
      | cons flown more =>
          rw [List.map_cons, List.cons.injEq] at same
          rw [List.map_cons, List.nodup_cons] at distinct
          obtain ⟨middle, done, moves, stops⟩ := update_request_moves filed accounted
            (congrArg Prod.fst same.1) (congrArg Prod.snd same.1)
            (ordinary entry List.mem_cons_self) (unstopped entry List.mem_cons_self) output result
            failed
          have differs : ∀ other ∈ later, other.1 ≠ entry.1 := fun other member equal =>
            distinct.1 (equal ▸ List.mem_map_of_mem member)
          obtain ⟨after, doneLater, chain⟩ := ih more (filed_moves filed moves)
            (accounted_moves accounted moves) same.2 distinct.2
            (fun other member request found => ordinary other (List.mem_cons_of_mem _ member)
              request ((stops.others other.1 (differs other member)).symm.trans found))
            (fun other member stopped => by
              rcases stops.preempted other.1 stopped with earlier | equal
              · exact unstopped other (List.mem_cons_of_mem _ member) earlier
              · exact differs other member equal)
          refine ⟨after, ?_, moves.trans chain⟩
          unfold updateRequests
          rw [done, ok_bind]
          exact doneLater

end Stops

end KvOffload.EngineUpdates
