import KvOffload.EngineMoves

/-!
# Admission of waiting requests

A waiting request that is visited is skipped, starts to load, or runs; it never leaves the desk.
-/

namespace KvOffload.EngineAdmissions

open KvOffload KvOffload.Base KvOffload.EngineState KvOffload.EngineScheduling
open KvOffload.EnginePlaces KvOffload.EngineDesk KvOffload.EngineBudgets KvOffload.EngineMoves
open KvOffload.FallibleChains

set_option autoImplicit false

variable {Q : Type} [LawfulRequestQueue Q] {engine : Engine Q} {parked : Multiset ReqId}
  {flight : List InFlight} {reqId : ReqId} {request : Request}

/-- The queue that is served. -/
def served (engine : Engine Q) (skipped : Bool) : Q :=
  if skipped then engine.skippedWaiting else engine.waiting

/-- The head of the queue that is served goes over to those that the step keeps apart. -/
theorem pop_from_moves {skipped : Bool}
    (first : RequestQueue.peek (served engine skipped) = some reqId) :
    Moves (view engine parked flight)
      (view (popFrom engine skipped) (reqId ::ₘ parked) flight) := by
  cases skipped with
  | true =>
      have head : queued engine.skippedWaiting =
          reqId ::ₘ queued (RequestQueue.pop engine.skippedWaiting) := queued_pop first
      have same : queued engine.skippedWaiting + parked =
          queued (RequestQueue.pop engine.skippedWaiting) + (reqId ::ₘ parked) := by
        rw [head, Multiset.cons_add, Multiset.add_cons]
      unfold view
      rw [same]
      exact .refl
  | false =>
      have head : queued engine.waiting = reqId ::ₘ queued (RequestQueue.pop engine.waiting) :=
        queued_pop first
      have moved := @Move.skipped (view engine parked flight) reqId _ head
      have same : reqId ::ₘ (queued engine.skippedWaiting + parked) =
          queued engine.skippedWaiting + (reqId ::ₘ parked) := (Multiset.add_cons _ _ _).symm
      refine .single ?_
      show Move _ (deskOf engine engine.running (queued (RequestQueue.pop engine.waiting))
        (queued engine.skippedWaiting + (reqId ::ₘ parked)) flight)
      rw [← same]
      exact moved

/-- The head of a queue is a tracked request that waits. -/
theorem head_waits (filed : (view engine parked flight).Filed) {skipped : Bool}
    (first : RequestQueue.peek (served engine skipped) = some reqId) :
    ∃ request, engine.requests.get? reqId = some request ∧ waits request = 1 := by
  have member : reqId ∈ queued engine.waiting ∨
      reqId ∈ queued engine.skippedWaiting + parked := by
    cases skipped with
    | true =>
        right
        rw [show queued engine.skippedWaiting = _ from queued_pop first, Multiset.cons_add]
        exact Multiset.mem_cons_self _ _
    | false =>
        left
        rw [show queued engine.waiting = _ from queued_pop first]
        exact Multiset.mem_cons_self _ _
  obtain ⟨request, found, waiting⟩ := (Filed.mem_queued filed).mp member
  exact ⟨request, found, if_pos waiting⟩

theorem unfinished_of_waits (waiting : waits request = 1) :
    request.status ≠ .running ∧ request.isFinished = false := by
  unfold waits at waiting
  split at waiting
  · assumption
  · cases waiting

theorem select_waiting_ok (filed : (view engine parked flight).Filed) :
    selectWaiting engine = .ok none ∨ ∃ skipped reqId,
      selectWaiting engine = .ok (some (skipped, reqId)) ∧
      RequestQueue.peek (served engine skipped) = some reqId := by
  have tracked : ∀ skipped reqId, RequestQueue.peek (served engine skipped) = some reqId →
      ∃ request, engine.request reqId = .ok request := by
    intro skipped reqId first
    obtain ⟨request, found, _⟩ := head_waits filed first
    refine ⟨request, ?_⟩
    unfold Engine.request
    rw [found]
  unfold selectWaiting
  cases skippedHead : RequestQueue.peek engine.skippedWaiting with
  | none =>
      cases waitingHead : RequestQueue.peek engine.waiting with
      | none => exact .inl rfl
      | some waitingReq => exact .inr ⟨false, waitingReq, rfl, waitingHead⟩
  | some skippedReq =>
      cases waitingHead : RequestQueue.peek engine.waiting with
      | none => exact .inr ⟨true, skippedReq, rfl, skippedHead⟩
      | some waitingReq =>
          right
          cases engine.config.policy with
          | fcfs => exact ⟨true, skippedReq, rfl, skippedHead⟩
          | priority =>
              obtain ⟨waitingRequest, asksWaiting⟩ := tracked false waitingReq waitingHead
              obtain ⟨skippedRequest, asksSkipped⟩ := tracked true skippedReq skippedHead
              simp only [asksWaiting, asksSkipped, ok_bind]
              split
              · exact ⟨false, waitingReq, rfl, waitingHead⟩
              · exact ⟨true, skippedReq, rfl, skippedHead⟩

/-- A waiting request is given another status without a block. -/
theorem requeue_moves {old : Request} (found : engine.requests.get? request.requestId = some old)
    (account : SameAccount old request) (queuedBefore : waits old = 1)
    (notStreaming : old.status ≠ .waitingForStreamingReq)
    (open_ : request.status = .waiting ∨ request.status = .preempted) :
    Moves (view engine parked flight) (view (engine.setRequest request) parked flight) := by
  have facts : waits request = 1 ∧ request.status.isBlocked = false ∧
      request.status ≠ .waitingForStreamingReq := by
    rcases open_ with status | status
    · simp [waits, Request.isFinished, RequestStatus.isFinished, RequestStatus.isBlocked, status]
    · simp [waits, Request.isFinished, RequestStatus.isFinished, RequestStatus.isBlocked, status]
  refine .single (.requeued found account queuedBefore facts.1 (fun blocked => ?_)
    (fun streaming => absurd streaming facts.2.2) ?_ le_rfl)
  · rw [facts.2.1] at blocked
    cases blocked
  · rw [show streams old = 0 from if_neg notStreaming,
      show streams request = 0 from if_neg facts.2.2]
    rfl

/-- What the visit of a request may do before the request leaves its queue. -/
structure Untouched (before after : Engine Q) : Prop where
  waiting : after.waiting = before.waiting
  skippedWaiting : after.skippedWaiting = before.skippedWaiting
  running : after.running = before.running
  streaming : after.numWaitingForStreamingInput = before.numWaitingForStreamingInput

omit [LawfulRequestQueue Q] in
theorem Untouched.trans {first second third : Engine Q} (early : Untouched first second)
    (late : Untouched second third) : Untouched first third :=
  ⟨late.waiting.trans early.waiting, late.skippedWaiting.trans early.skippedWaiting,
    late.running.trans early.running, late.streaming.trans early.streaming⟩

/-- A request that may go on waits in its queue without a block. -/
structure Promoted (engine : Engine Q) (reqId : ReqId) (request : Request) : Prop where
  own : request.requestId = reqId
  found : engine.requests.get? reqId = some request
  waiting : waits request = 1
  unblocked : request.status.isBlocked = false

/-- A request that was loading is no longer blocked. -/
theorem remote_kv_moves (found : engine.requests.get? request.requestId = some request)
    (loading : request.status = .waitingForRemoteKvs) {after : Engine Q} {loaded : Request}
    (updated : updateWaitingForRemoteKv engine request = (after, loaded)) :
    Moves (view engine parked flight) (view after parked flight) ∧ Untouched engine after ∧
      after.requests = engine.requests ∧ loaded.requestId = request.requestId ∧
      SameAccount request loaded := by
  have tells : ∀ call : EngineCall, call = .free request.requestId ∨
      call = .cacheBlocks request.requestId request.numComputedTokens →
      Moves (view engine parked flight) (view (engine.tell call) parked flight) := by
    intro call either
    rcases either with rfl | rfl
    · exact .single (.freed found (.inr (.inr loading)))
    · exact told_moves rfl (fun _ serves => by cases serves)
  unfold updateWaitingForRemoteKv at updated
  dsimp only at updated
  split at updated
  · cases updated
    refine ⟨?_, ⟨rfl, rfl, rfl, rfl⟩, rfl, rfl, ⟨rfl, rfl, rfl, rfl⟩⟩
    split
    · exact tells _ (.inr rfl)
    · exact tells _ (.inl rfl)
  · cases updated
    refine ⟨tells _ (.inr rfl), ⟨rfl, rfl, rfl, rfl⟩, rfl, ?_⟩
    split
    · exact ⟨rfl, ⟨rfl, rfl, rfl, rfl⟩⟩
    · exact ⟨rfl, ⟨rfl, rfl, rfl, rfl⟩⟩

theorem try_promote_leads (filed : (view engine parked flight).Filed)
    (found : engine.requests.get? reqId = some request) (waiting : waits request = 1) :
    Leads Move Answered (view engine parked flight) (fun result => view result.2 parked flight)
      (fun result => Untouched engine result.2 ∧
        ∀ promoted, result.1 = some promoted → Promoted result.2 reqId promoted)
      (tryPromote engine request) := by
  obtain rfl : reqId = request.requestId := (filed.ids reqId request found).symm
  have still : Leads Move Answered (view engine parked flight)
      (fun result => view result.2 parked flight)
      (fun result => Untouched engine result.2 ∧ ∀ promoted : Request,
        result.1 = some promoted → Promoted result.2 request.requestId promoted)
      (Except.ok (none, engine)) :=
    ⟨.refl, ⟨rfl, rfl, rfl, rfl⟩, fun _ nothing => by cases nothing⟩
  have stays : request.status.isBlocked = false → Leads Move Answered (view engine parked flight)
      (fun result => view result.2 parked flight)
      (fun result => Untouched engine result.2 ∧ ∀ promoted : Request,
        result.1 = some promoted → Promoted result.2 request.requestId promoted)
      (Except.ok (some request, engine)) := by
    refine fun unblocked => ⟨.refl, ⟨rfl, rfl, rfl, rfl⟩, fun promoted same => ?_⟩
    cases same
    exact ⟨rfl, found, waiting, unblocked⟩
  unfold tryPromote
  cases status : request.status with
  | waiting => exact stays (by rw [status]; rfl)
  | preempted => exact stays (by rw [status]; rfl)
  | running => exact absurd status (unfinished_of_waits waiting).1
  | finished how => exact stays (by rw [status]; rfl)
  | waitingForStreamingReq =>
      dsimp only
      rw [if_pos (filed.sessions _ request found status).2]
      exact still
  | waitingForRemoteKvs =>
      dsimp only
      split
      · cases updated : updateWaitingForRemoteKv engine request with
        | mk after loaded =>
            obtain ⟨moves, untouched, sameRequests, own, account⟩ :=
              remote_kv_moves found status updated
            have promoted : ∀ status : RequestStatus, status = .waiting ∨ status = .preempted →
                Moves (view engine parked flight)
                    (view (after.setRequest (loaded.withStatus status)) parked flight) ∧
                  Promoted (after.setRequest (loaded.withStatus status)) request.requestId
                    (loaded.withStatus status) := by
              intro new open_
              have lookedUp : after.requests.get? (loaded.withStatus new).requestId =
                  some request := by
                rw [sameRequests]
                exact own ▸ found
              refine ⟨moves.trans (requeue_moves lookedUp ⟨account.inFlight, account.stale,
                account.epoch, account.seq⟩ waiting (by rw [status]; exact nofun) open_), own, ?_,
                ?_, ?_⟩
              · show (after.requests.set loaded.requestId _).get? _ = _
                rw [own, OrderedMap.get_set_self]
              · rcases open_ with rfl | rfl <;> rfl
              · rcases open_ with rfl | rfl <;> rfl
            dsimp only
            split
            · obtain ⟨chain, open_⟩ := promoted .preempted (.inr rfl)
              exact ⟨chain, ⟨untouched.waiting, untouched.skippedWaiting, untouched.running,
                untouched.streaming⟩,
                fun other same => by cases same; exact open_⟩
            · obtain ⟨chain, open_⟩ := promoted .waiting (.inl rfl)
              exact ⟨chain, ⟨untouched.waiting, untouched.skippedWaiting, untouched.running,
                untouched.streaming⟩,
                fun other same => by cases same; exact open_⟩
      · exact still
  | waitingForStructuredOutputGrammar =>
      have asked : Moves (view engine parked flight)
          (view (engine.query (.grammarOf request.requestId)).2 parked flight) :=
        told_moves rfl (fun _ serves => by cases serves)
      dsimp only
      split
      · exact ⟨asked, ⟨rfl, rfl, rfl, rfl⟩, fun _ nothing => by cases nothing⟩
      · exact ⟨asked, ⟨rfl, rfl, rfl, rfl⟩, fun _ nothing => by cases nothing⟩
      · refine ⟨asked.trans (requeue_moves found ⟨rfl, rfl, rfl, rfl⟩ waiting
          (by rw [status]; exact nofun) (.inl rfl)), ⟨rfl, rfl, rfl, rfl⟩, fun other same => ?_⟩
        cases same
        exact ⟨rfl, OrderedMap.get_set_self _ _ _, rfl, rfl⟩

/-- The engine after calls only. -/
structure Called (before after : Engine Q) (parked : Multiset ReqId) (flight : List InFlight) :
    Prop where
  moves : Moves (view before parked flight) (view after parked flight)
  untouched : Untouched before after
  requests : after.requests = before.requests

theorem Called.refl (engine : Engine Q) : Called engine engine parked flight :=
  ⟨.refl, ⟨rfl, rfl, rfl, rfl⟩, rfl⟩

theorem Called.told {before : Engine Q} (called : Called before engine parked flight)
    {call : EngineCall} (plain : call.isPlain = true)
    (tracked : ∀ served, call.serves = some served → ∃ request,
      before.requests.get? served = some request ∧ request.isFinished = false) :
    Called before (engine.query call).2 parked flight := by
  refine ⟨called.moves.trans (told_moves plain ?_), ⟨called.untouched.waiting,
    called.untouched.skippedWaiting, called.untouched.running, called.untouched.streaming⟩,
    called.requests⟩
  rw [called.requests]
  exact tracked

theorem look_up_leads (filed : (view engine parked flight).Filed)
    (promoted : Promoted engine reqId request) :
    Leads Move Answered (view engine parked flight) (fun result => view result.2.2 parked flight)
      (fun result => Untouched engine result.2.2 ∧ Promoted result.2.2 reqId result.2.1)
      (lookUp engine request) := by
  obtain ⟨rfl, found, waiting, unblocked⟩ := promoted
  have noneServed : ∀ {call : EngineCall}, call.serves = none → ∀ served,
      call.serves = some served → ∃ request, engine.requests.get? served = some request ∧
        request.isFinished = false := by
    intro call nothing served serves
    rw [nothing] at serves
    cases serves
  have ends : ∀ (last : Engine Q) (boundary : Nat), Called engine last parked flight →
      Moves (view engine parked flight) (view (last.setRequest
          { request with sharedPrefixBoundary := boundary }) parked flight) ∧
        Untouched engine (last.setRequest { request with sharedPrefixBoundary := boundary }) ∧
        Promoted (last.setRequest { request with sharedPrefixBoundary := boundary })
          request.requestId { request with sharedPrefixBoundary := boundary } := by
    intro last boundary called
    have lookedUp : last.requests.get? request.requestId = some request := by
      rw [called.requests]
      exact found
    exact ⟨called.moves.trans (set_moves lookedUp ⟨rfl, rfl, rfl, rfl⟩ rfl
      (filed.sessions _ request found)), ⟨called.untouched.waiting,
        called.untouched.skippedWaiting, called.untouched.running, called.untouched.streaming⟩, rfl,
          OrderedMap.get_set_self _ _ _, waiting, unblocked⟩
  unfold lookUp
  split
  · exact ⟨.refl, ⟨rfl, rfl, rfl, rfl⟩, rfl, found, waiting, unblocked⟩
  · dsimp only
    generalize hitCall : (if engine.config.divergentLocalHits = true then
      EngineCall.getComputedBlocksForConnector request.requestId
      else EngineCall.getComputedBlocks request.requestId) = first
    have kind : first.isPlain = true ∧ first.serves = none := by
      rw [← hitCall]
      split
      · exact ⟨rfl, rfl⟩
      · exact ⟨rfl, rfl⟩
    have hit := (@Called.refl _ _ parked flight engine).told kind.1 (noneServed kind.2)
    generalize (engine.query first).1 = answer at *
    generalize (engine.query first).2 = second at *
    generalize answer.numLocalTokens % second.config.blockSize = partialTail
    have matched := @Called.told _ _ _ _ _ _ hit (.getNumNewMatchedTokens request.requestId
      (answer.numLocalTokens - partialTail)) rfl fun served serves => by
        cases serves
        exact ⟨request, found, (unfinished_of_waits waiting).2⟩
    generalize second.query (EngineCall.getNumNewMatchedTokens request.requestId
      (answer.numLocalTokens - partialTail)) = asked at *
    obtain ⟨external, third⟩ := asked
    dsimp only at matched ⊢
    split
    · exact ends third _ matched
    · rename_i extTokens _
      generalize chosen : (if partialTail ≠ 0 ∧ partialTail < extTokens then
          (answer.numLocalTokens - partialTail, extTokens, external.loadKvAsync,
            third.tell (.truncateComputedBlocks request.requestId
              (answer.numLocalTokens - partialTail)))
        else if partialTail ≠ 0 then (answer.numLocalTokens, 0, false, third)
        else (answer.numLocalTokens, extTokens, external.loadKvAsync, third)) = choice
      have called : Called engine choice.2.2.2 parked flight := by
        rw [← chosen]
        split
        · exact matched.told rfl (noneServed rfl)
        · split
          · exact matched
          · exact matched
      by_cases again : engine.config.divergentLocalHits = true ∧ answer.hitDiverged = true ∧
          choice.2.1 = 0
      · simp only [if_pos again]
        split
        · exact ends _ _ (called.told rfl (noneServed rfl))
        · exact Or.inl rfl
      · simp only [if_neg again]
        split
        · exact ends _ _ called
        · exact Or.inl rfl

section Visits

variable {pass : Pass} {budget : Int}

/-- The tokens of a waiting request are within both budgets. -/
theorem waiting_tokens_bounds (config : EngineConfig) (pass : Pass) (deferPrefills : Bool)
    (request : Request) (found : Found) :
    (∀ problem, waitingTokens config pass deferPrefills request found = .error problem →
      Answered problem) ∧
    ∀ numNewTokens pad,
      waitingTokens config pass deferPrefills request found = .ok (some (numNewTokens, pad)) →
      found.loadKvAsync = false → 0 < numNewTokens ∧ numNewTokens ≤ pass.tokenBudget ∧
        numNewTokens + config.draftSlots ≤ pass.inputBudget := by
  unfold waitingTokens
  split
  · rename_i loads
    refine ⟨fun problem raised => ?_, fun _ _ _ waits => absurd loads (by rw [waits]; decide)⟩
    split at raised
    · cases raised
    · cases raised
      exact Or.inl rfl
  · split
    · exact ⟨nofun, nofun⟩
    · dsimp only
      generalize padsSpecDecode config pass (request.numTokens - found.numComputedTokens) = pad
      generalize (if pad = true then 1 + (config.numSpecTokens : Int)
        else request.numTokens - found.numComputedTokens) = padded
      have withinBoth : ∀ wanted, min wanted (min pass.tokenBudget
          (pass.inputBudget - config.draftSlots)) ≤ pass.tokenBudget ∧
          min wanted (min pass.tokenBudget (pass.inputBudget - config.draftSlots)) ≤
            pass.inputBudget - config.draftSlots := fun wanted =>
        ⟨(min_le_right _ _).trans (min_le_left _ _), (min_le_right _ _).trans (min_le_right _ _)⟩
      split
      · exact ⟨nofun, nofun⟩
      · split
        · exact ⟨nofun, nofun⟩
        · have within := withinBoth (withinThreshold config padded)
          generalize min (withinThreshold config padded) (min pass.tokenBudget
            (pass.inputBudget - config.draftSlots)) = granted at within ⊢
          split
          · refine ⟨fun problem raised => ?_, nofun⟩
            cases raised
            exact Or.inr rfl
          · cases config.needMambaBlockAlignedSplit with
            | false =>
                refine ⟨fun problem raised => by simp at raised, fun given pad same _ => ?_⟩
                simp only [Bool.false_eq_true, false_and, if_false, Except.ok.injEq,
                  Option.some.injEq, Prod.mk.injEq] at same
                omega
            | true =>
                have bounds := @mamba_split_bounds config request granted (by omega)
                  found.numLocalTokens found.numExternalTokens
                simp only [if_true, true_and]
                generalize mambaBlockAlignedSplit config request granted found.numLocalTokens
                  found.numExternalTokens = shortened at bounds ⊢
                split
                · exact ⟨nofun, nofun⟩
                · refine ⟨nofun, fun given pad same _ => ?_⟩
                  simp only [Except.ok.injEq, Option.some.injEq, Prod.mk.injEq] at same
                  omega

/-- How the visit leaves the desk. -/
def visitDesk (parked : Multiset ReqId) (reqId : ReqId) (flight : List InFlight) :
    Visit Q → Desk
  | .skips after _ | .loads after _ => view after (reqId ::ₘ parked) flight
  | .stops after | .runs after _ => view after parked flight

def Visited (engine : Engine Q) (budget : Int) (reqId : ReqId) : Visit Q → Prop
  | .skips after request | .loads after request =>
      request.requestId = reqId ∧ after.running = engine.running
  | .stops after => after.running = engine.running
  | .runs after given => Scheduled after budget given

omit [LawfulRequestQueue Q] in
theorem Visited.of_running {other : Engine Q} (same : other.running = engine.running)
    {visit : Visit Q} (visited : Visited other budget reqId visit) :
    Visited engine budget reqId visit := by
  cases visit with
  | skips after request => exact ⟨visited.1, visited.2.trans same⟩
  | loads after request => exact ⟨visited.1, visited.2.trans same⟩
  | stops after => exact Eq.trans visited same
  | runs after given => exact visited

omit [LawfulRequestQueue Q] in
theorem open_status (promoted : Promoted engine reqId request) :
    request.status = .waiting ∨ request.status = .preempted := by
  obtain ⟨notRunning, unfinished⟩ := unfinished_of_waits promoted.waiting
  have unblocked := promoted.unblocked
  unfold Request.isFinished at unfinished
  cases status : request.status with
  | waiting => exact .inl rfl
  | preempted => exact .inr rfl
  | running => exact absurd status notRunning
  | finished how =>
      rw [status] at unfinished
      cases unfinished
  | _ =>
      rw [status] at unblocked
      cases unblocked

theorem pop_from_frame (engine : Engine Q) (skipped : Bool) :
    (popFrom engine skipped).requests = engine.requests ∧
      (popFrom engine skipped).running = engine.running ∧
      (popFrom engine skipped).config = engine.config ∧
      (popFrom engine skipped).numWaitingForStreamingInput =
        engine.numWaitingForStreamingInput := by
  cases skipped
  · exact ⟨rfl, rfl, rfl, rfl⟩
  · exact ⟨rfl, rfl, rfl, rfl⟩

/-- A waiting request moves over to the running ones. -/
theorem grant_waiting_moves (promoted : Promoted engine reqId request) {skipped : Bool}
    (first : RequestQueue.peek (served engine skipped) = some reqId)
    (room : (engine.running.length : Int) + engine.numWaitingForStreamingInput <
      engine.config.maxNumRunningReqs) (numComputedTokens : Int) :
    Moves (view engine parked flight) (view (Engine.setRequest
      { popFrom engine skipped with
        running := (popFrom engine skipped).running ++ [request.requestId]
        calls := (popFrom engine skipped).calls ++ [.getBlocks request.requestId] }
      ((request.withStatus .running).withComputed numComputedTokens)) parked flight) := by
  obtain ⟨rfl, tracked, waiting, unblocked⟩ := promoted
  have popped : Moves (view engine parked flight)
      (view (popFrom engine skipped) (request.requestId ::ₘ parked) flight) := pop_from_moves first
  have frame := pop_from_frame engine skipped
  generalize popFrom engine skipped = next at popped frame ⊢
  obtain ⟨sameRequests, sameRunning, sameConfig, sameStreaming⟩ := frame
  have asked : Moves (view next (request.requestId ::ₘ parked) flight)
      (deskOf { next with
        running := next.running ++ [request.requestId]
        calls := next.calls ++ [.getBlocks request.requestId] } next.running
          (queued next.waiting) (queued next.skippedWaiting + (request.requestId ::ₘ parked))
            flight) :=
    @told_moves _ next next.running (queued next.waiting) _ flight (.getBlocks request.requestId)
      rfl (fun _ serves => by cases serves)
  have stands : queued next.skippedWaiting + (request.requestId ::ₘ parked) =
      request.requestId ::ₘ (queued next.skippedWaiting + parked) := Multiset.add_cons _ _ _
  have runs : ((next.running ++ [request.requestId] : List ReqId) : Multiset ReqId) =
      request.requestId ::ₘ (next.running : Multiset ReqId) :=
    Multiset.coe_eq_coe.mpr (List.perm_append_singleton _ _)
  have lookedUp : next.requests.get? request.requestId = some request := by
    rw [sameRequests]
    exact tracked
  have roomNow : (Multiset.card (next.running : Multiset ReqId) : Int) +
      next.numWaitingForStreamingInput < next.config.maxNumRunningReqs := by
    rw [Multiset.coe_card, sameRunning, sameStreaming, sameConfig]
    exact room
  have move := @Move.admitted (deskOf { next with
      running := next.running ++ [request.requestId]
      calls := next.calls ++ [.getBlocks request.requestId] } next.running
        (queued next.waiting) (queued next.skippedWaiting + (request.requestId ::ₘ parked))
          flight) request ((request.withStatus .running).withComputed numComputedTokens) _
    lookedUp ⟨rfl, rfl, rfl, rfl⟩ stands unblocked rfl roomNow
  refine (popped.trans asked).tail ?_
  show Move _ (deskOf _ ((next.running ++ [request.requestId] : List ReqId) : Multiset ReqId)
    (queued next.waiting) (queued next.skippedWaiting + parked) flight)
  rw [runs]
  exact move

omit [LawfulRequestQueue Q] in
/-- A request that is listed as new or as resumed, and charged. -/
theorem Scheduled.granted {charged : Pass} {numNewTokens : Int}
    (scheduled : Scheduled engine budget pass)
    (fresh : pass.numScheduledTokens.get? reqId = none)
    (bounds : 0 < numNewTokens ∧ numNewTokens ≤ pass.tokenBudget ∧
      numNewTokens + engine.config.draftSlots ≤ pass.inputBudget)
    (more : charged.scheduledNewReqs = pass.scheduledNewReqs ++ [reqId] ∧
        charged.scheduledResumedReqs = pass.scheduledResumedReqs ∨
      charged.scheduledNewReqs = pass.scheduledNewReqs ∧
        charged.scheduledResumedReqs = pass.scheduledResumedReqs ++ [reqId])
    (sameRunningReqs : charged.scheduledRunningReqs = pass.scheduledRunningReqs)
    (given : charged.numScheduledTokens = pass.numScheduledTokens.set reqId numNewTokens)
    (tokens : charged.tokenBudget = pass.tokenBudget - numNewTokens)
    (inputs : charged.inputBudget = pass.inputBudget - (numNewTokens + engine.config.draftSlots)) :
    Balanced engine.config budget charged := by
  refine scheduled.1.charged fresh bounds.1 bounds.2.1 bounds.2.2 ?_ given tokens inputs
  rw [List.perm_iff_count]
  intro other
  rcases more with ⟨moreNew, sameResumed⟩ | ⟨sameNew, moreResumed⟩
  · rw [moreNew, sameResumed, sameRunningReqs]
    simp only [List.count_append]
    omega
  · rw [sameNew, moreResumed, sameRunningReqs]
    simp only [List.count_append]
    omega

/-- A waiting request that has its slots runs. -/
theorem grant_waiting_leads (filed : (view engine parked flight).Filed)
    (promoted : Promoted engine reqId request) {skipped : Bool}
    (first : RequestQueue.peek (served engine skipped) = some reqId)
    (scheduled : Scheduled engine budget pass) {numNewTokens : Int}
    (bounds : 0 < numNewTokens ∧ numNewTokens ≤ pass.tokenBudget ∧
      numNewTokens + engine.config.draftSlots ≤ pass.inputBudget)
    (room : (engine.running.length : Int) + engine.numWaitingForStreamingInput <
      engine.config.maxNumRunningReqs) (found : Found) (pad : Bool) :
    Leads Move Answered (view engine parked flight) (visitDesk parked reqId flight)
      (Visited engine budget reqId)
      (grantWaiting engine pass skipped request found numNewTokens pad) := by
  have status := open_status promoted
  have admitted := @grant_waiting_moves Q _ engine parked flight reqId request promoted skipped
    first room found.numComputedTokens
  obtain ⟨rfl, tracked, waiting, unblocked⟩ := promoted
  have idle : request.requestId ∉ engine.running := by
    intro member
    obtain ⟨other, sameFound, ran⟩ := (Filed.mem_running filed).mp (Multiset.mem_coe.mpr member)
    cases sameFound.symm.trans tracked
    exact (unfinished_of_waits waiting).1 ran
  have fresh : pass.numScheduledTokens.get? request.requestId = none := by
    rw [← Option.not_isSome_iff_eq_none, ← OrderedMap.mem_keys_iff]
    exact fun listed => idle (scheduled.2 _ listed)
  have frame := pop_from_frame engine skipped
  unfold grantWaiting
  generalize popFrom engine skipped = next at admitted frame ⊢
  obtain ⟨_, sameRunning, sameConfig, _⟩ := frame
  have balanced := fun charged => @Scheduled.granted Q engine request.requestId pass budget charged
    numNewTokens scheduled fresh bounds
  rw [← sameConfig] at balanced
  have given : ∀ other ∈ (pass.numScheduledTokens.set request.requestId numNewTokens).keys,
      other ∈ next.running ++ [request.requestId] := by
    intro other member
    rcases (OrderedMap.mem_keys_set _ _ _ _).mp member with rfl | earlier
    · exact List.mem_append_right _ List.mem_cons_self
    · rw [sameRunning]
      exact List.mem_append_left _ (scheduled.2 other earlier)
  rcases status with isWaiting | isPreempted
  · rw [isWaiting]
    cases pad
    · exact ⟨admitted, balanced _ (.inl ⟨rfl, rfl⟩) rfl rfl rfl rfl, given⟩
    · exact ⟨admitted, balanced _ (.inl ⟨rfl, rfl⟩) rfl rfl rfl rfl, given⟩
  · rw [isPreempted]
    cases pad
    · exact ⟨admitted, balanced _ (.inr ⟨rfl, rfl⟩) rfl rfl rfl rfl, given⟩
    · exact ⟨admitted, balanced _ (.inr ⟨rfl, rfl⟩) rfl rfl rfl rfl, given⟩

/-- A waiting request starts to load and is kept apart. -/
theorem load_waiting_moves (filed : (view engine parked flight).Filed)
    (promoted : Promoted engine reqId request) {skipped : Bool}
    (first : RequestQueue.peek (served engine skipped) = some reqId) (numComputedTokens : Int) :
    Moves (view engine parked flight) (view ((popFrom engine skipped).setRequest
      ((request.withStatus .waitingForRemoteKvs).withComputed numComputedTokens))
        (reqId ::ₘ parked) flight) := by
  have open_ := open_status promoted
  obtain ⟨rfl, tracked, waiting, unblocked⟩ := promoted
  have popped : Moves (view engine parked flight)
      (view (popFrom engine skipped) (request.requestId ::ₘ parked) flight) := pop_from_moves first
  have filedNow := filed_moves filed popped
  have lookedUp : (popFrom engine skipped).requests.get? request.requestId = some request := by
    rw [(pop_from_frame engine skipped).1]
    exact tracked
  have notStreaming : streams request = 0 := by
    rcases open_ with status | status
    · simp [streams, status]
    · simp [streams, status]
  refine popped.tail (.requeued lookedUp ⟨rfl, rfl, rfl, rfl⟩ waiting rfl (fun _ member => ?_)
    (fun rests => by cases rests) ?_ le_rfl)
  · have once := filedNow.queuedOnce request.requestId
    rw [show (view (popFrom engine skipped) (request.requestId ::ₘ parked) flight).requests.get?
      request.requestId = some request from lookedUp] at once
    have inWaiting : 0 < (view (popFrom engine skipped) (request.requestId ::ₘ parked)
        flight).waiting.count request.requestId := Multiset.count_pos.mpr member
    have inSkipped : 0 < (view (popFrom engine skipped) (request.requestId ::ₘ parked)
        flight).skipped.count request.requestId :=
      Multiset.count_pos.mpr (Multiset.mem_add.mpr (.inr (Multiset.mem_cons_self _ _)))
    simp only [Option.elim_some, waiting] at once
    omega
  · rw [notStreaming]
    rfl

/-- A waiting request for which slots are wanted gets none, starts to load, or runs. -/
theorem admit_waiting_leads (filed : (view engine parked flight).Filed)
    (promoted : Promoted engine reqId request) {skipped : Bool}
    (first : RequestQueue.peek (served engine skipped) = some reqId)
    (scheduled : Scheduled engine budget pass) {numNewTokens : Int} {found : Found}
    (bounds : found.loadKvAsync = false → 0 < numNewTokens ∧ numNewTokens ≤ pass.tokenBudget ∧
      numNewTokens + engine.config.draftSlots ≤ pass.inputBudget)
    (room : (engine.running.length : Int) + engine.numWaitingForStreamingInput <
      engine.config.maxNumRunningReqs) (pad : Bool) :
    Leads Move Answered (view engine parked flight) (visitDesk parked reqId flight)
      (Visited engine budget reqId)
      (admitWaiting engine pass skipped request found numNewTokens pad) := by
  have own := promoted.own
  have tracked : ∀ {call : EngineCall}, call.serves = none ∨ call.serves = some reqId →
      ∀ served, call.serves = some served → ∃ request,
        engine.requests.get? served = some request ∧ request.isFinished = false := by
    rintro call (nothing | it) served serves
    · rw [nothing] at serves
      cases serves
    · cases it.symm.trans serves
      exact ⟨request, promoted.found, (unfinished_of_waits promoted.waiting).2⟩
  unfold admitWaiting
  dsimp only
  rw [own]
  generalize escaped : (if engine.config.escapeRelaxFullFit = true ∧ found.loadKvAsync = false then
      ((engine.query (.isStaleHitEscape reqId)).1.succeeds,
        (engine.query (.isStaleHitEscape reqId)).2)
    else (false, engine)) = choice
  have called : Called engine choice.2 parked flight ∧ choice.2.config = engine.config ∧
      choice.2.numWaitingForStreamingInput = engine.numWaitingForStreamingInput := by
    rw [← escaped]
    split
    · exact ⟨(Called.refl engine).told rfl (tracked (.inr rfl)), rfl, rfl⟩
    · exact ⟨Called.refl engine, rfl, rfl⟩
  obtain ⟨escapedCalls, sameConfig, sameStreaming⟩ := called
  generalize choice.2 = next at *
  generalize asks : EngineCall.allocateSlots reqId numNewTokens found.numLocalTokens
    found.numExternalTokens
    (if found.loadKvAsync = true then 0 else engine.config.numLookaheadTokens) found.loadKvAsync
    (engine.config.reserveFullIsl && !choice.1) = call
  have kind : call.isPlain = true ∧ call.serves = none := by
    rw [← asks]
    exact ⟨rfl, rfl⟩
  have allocated := escapedCalls.told kind.1 (tracked (.inl kind.2))
  split
  · exact ⟨allocated.moves, allocated.untouched.running⟩
  · have told := @Called.told _ _ _ _ _ _ allocated
      (.updateStateAfterAlloc reqId found.numExternalTokens) rfl (tracked (.inr rfl))
    have filedNow := filed_moves filed told.moves
    have promotedNow : Promoted ((next.query call).2.query
        (.updateStateAfterAlloc reqId found.numExternalTokens)).2 reqId request :=
      ⟨own, told.requests ▸ promoted.found, promoted.waiting, promoted.unblocked⟩
    have firstNow : RequestQueue.peek (served ((next.query call).2.query
        (.updateStateAfterAlloc reqId found.numExternalTokens)).2 skipped) = some reqId := by
      unfold served at first ⊢
      rw [told.untouched.waiting, told.untouched.skippedWaiting]
      exact first
    split
    · refine ⟨told.moves.trans (load_waiting_moves filedNow promotedNow firstNow _), own, ?_⟩
      exact (pop_from_frame _ skipped).2.1.trans told.untouched.running
    · rename_i computes
      refine Leads.after told.moves ((grant_waiting_leads filedNow promotedNow firstNow ?_ ?_ ?_
        found pad).weaken fun visit _ visited =>
          ⟨.refl, visited.of_running told.untouched.running⟩)
      · exact ⟨sameConfig ▸ scheduled.1, fun other member =>
          told.untouched.running ▸ scheduled.2 other member⟩
      · have sameSlots : ((next.query call).2.query
            (.updateStateAfterAlloc reqId found.numExternalTokens)).2.config = engine.config :=
          sameConfig
        rw [sameSlots]
        exact bounds (Bool.eq_false_iff.mpr computes)
      · rw [told.untouched.running]
        show (engine.running.length : Int) + next.numWaitingForStreamingInput <
          next.config.maxNumRunningReqs
        rw [sameConfig, sameStreaming]
        exact room

/-- One waiting request is visited. -/
theorem visit_waiting_leads (filed : (view engine parked flight).Filed) {skipped : Bool}
    (first : RequestQueue.peek (served engine skipped) = some reqId)
    (scheduled : Scheduled engine budget pass)
    (room : (engine.running.length : Int) + engine.numWaitingForStreamingInput <
      engine.config.maxNumRunningReqs) (deferPrefills : Bool) :
    Leads Move Answered (view engine parked flight) (visitDesk parked reqId flight)
      (Visited engine budget reqId) (visitWaiting deferPrefills engine pass skipped reqId) := by
  have firstIn : ∀ {after : Engine Q}, Untouched engine after →
      RequestQueue.peek (served after skipped) = some reqId := by
    intro after untouched
    unfold served at first ⊢
    rw [untouched.waiting, untouched.skippedWaiting]
    exact first
  -- a request that is passed over goes to those kept apart
  have skips : ∀ {after : Engine Q} {request : Request}, request.requestId = reqId →
      Untouched engine after → Leads Move Answered (view after parked flight)
        (visitDesk parked reqId flight) (Visited engine budget reqId)
        (Except.ok (Visit.skips (popFrom after skipped) request)) :=
    fun {after request} own untouched => ⟨pop_from_moves (firstIn untouched), own,
      (pop_from_frame _ skipped).2.1.trans untouched.running⟩
  obtain ⟨request, found, waiting⟩ := head_waits filed first
  have asks : engine.request reqId = .ok request := by
    unfold Engine.request
    rw [found]
  unfold visitWaiting
  simp only [asks, ok_bind]
  refine (try_promote_leads filed found waiting).bind ?_
  rintro ⟨promoted, after⟩ moves ⟨untouched, isPromoted⟩
  cases promoted with
  | none => exact skips (filed.ids reqId request found) untouched
  | some promoted =>
      have promotedNow := isPromoted promoted rfl
      dsimp only
      split
      · exact skips promotedNow.own untouched
      · refine (look_up_leads (filed_moves filed moves) promotedNow).bind ?_
        rintro ⟨found, lookedUp, later⟩ further ⟨stillThere, stillPromoted⟩
        have same := untouched.trans stillThere
        have chain := moves.trans further
        have sameConfig : later.config = engine.config := config_moves chain
        cases found with
        | none => exact skips stillPromoted.own same
        | some found =>
            dsimp only
            have bounds := waiting_tokens_bounds later.config pass deferPrefills lookedUp found
            cases tokens : waitingTokens later.config pass deferPrefills lookedUp found with
            | error problem => exact bounds.1 problem tokens
            | ok granted =>
                rw [ok_bind]
                cases granted with
                | none => exact ⟨.refl, same.running⟩
                | some granted =>
                    obtain ⟨numNewTokens, pad⟩ := granted
                    refine (admit_waiting_leads (filed_moves filed chain) stillPromoted
                      (firstIn same) ?_ (bounds.2 numNewTokens pad tokens) ?_ pad).weaken
                        fun visit _ visited => ⟨.refl, visited.of_running same.running⟩
                    · exact ⟨sameConfig ▸ scheduled.1, fun other member =>
                        same.running ▸ scheduled.2 other member⟩
                    · rw [same.running, sameConfig, same.streaming]
                      exact room

theorem schedule_waiting_leads (deferPrefills : Bool) (fuel : Nat) {stepSkipped : Q}
    (filed : (view engine (queued stepSkipped) flight).Filed)
    (scheduled : Scheduled engine budget pass) :
    Leads Move Answered (view engine (queued stepSkipped) flight)
      (fun result => view result.1 (queued result.2.2) flight)
      (fun result => Scheduled result.1 budget result.2.1)
      (scheduleWaiting deferPrefills fuel engine pass stepSkipped) := by
  induction fuel generalizing engine pass stepSkipped with
  | zero => exact ⟨.refl, scheduled⟩
  | succ fuel ih =>
      unfold scheduleWaiting
      rcases select_waiting_ok filed with empty | ⟨skipped, reqId, head, first⟩
      · simp only [empty, ok_bind]
        exact ⟨.refl, scheduled⟩
      · simp only [head, ok_bind]
        split
        · exact ⟨.refl, scheduled⟩
        · rename_i room
          refine (visit_waiting_leads filed first scheduled (by omega) deferPrefills).bind ?_
          intro visit moves visited
          have filedAfter := filed_moves filed moves
          have keeps : ∀ {after : Engine Q}, after.config = engine.config →
              after.running = engine.running → Scheduled after budget pass :=
            fun sameConfig sameRunning => ⟨sameConfig ▸ scheduled.1, fun other member =>
              sameRunning ▸ scheduled.2 other member⟩
          cases visit with
          | skips after request =>
              obtain ⟨rfl, sameRunning⟩ := visited
              have again := @ih after pass (RequestQueue.prepend stepSkipped request)
              rw [queued_prepend] at again
              exact again filedAfter (keeps (config_moves moves) sameRunning)
          | loads after request =>
              obtain ⟨rfl, sameRunning⟩ := visited
              have again := @ih after pass (RequestQueue.prepend stepSkipped request)
              rw [queued_prepend] at again
              exact again filedAfter (keeps (config_moves moves) sameRunning)
          | stops after => exact ⟨.refl, keeps (config_moves moves) visited⟩
          | runs after given => exact ih filedAfter visited

/-- The requests that were kept apart go back to the skipped ones. -/
theorem admit_requests_leads (deferPrefills : Bool) (filed : (view engine 0 flight).Filed)
    (scheduled : Scheduled engine budget pass) :
    Leads Move Answered (view engine 0 flight) (fun result => view result.1 0 flight)
      (fun result => Scheduled result.1 budget result.2)
      (admitRequests engine pass deferPrefills) := by
  unfold admitRequests
  split
  · have started : queued (RequestQueue.empty : Q) = 0 := queued_empty
    rw [← started] at filed
    have looped := schedule_waiting_leads deferPrefills
      ((RequestQueue.items engine.waiting).length +
        (RequestQueue.items engine.skippedWaiting).length)
      filed scheduled
    rw [started] at looped
    refine looped.bind ?_
    rintro ⟨after, given, stepSkipped⟩ _ scheduledAfter
    dsimp only
    generalize back : (if RequestQueue.items stepSkipped = [] then after
      else { after with skippedWaiting :=
        RequestQueue.prependAll after.skippedWaiting stepSkipped }) = last
    have returned : last.running = after.running ∧ last.config = after.config ∧
        view last 0 flight = view after (queued stepSkipped) flight := by
      rw [← back]
      split
      · rename_i empty
        have none : queued stepSkipped = 0 := by
          unfold queued
          rw [empty]
          rfl
        exact ⟨rfl, rfl, by rw [none]⟩
      · refine ⟨rfl, rfl, ?_⟩
        unfold view
        rw [queued_prepend_all, add_zero, add_comm (queued stepSkipped)]
        rfl
    obtain ⟨sameRunning, sameConfig, sameView⟩ := returned
    have scheduledLast : Scheduled last budget given :=
      ⟨sameConfig ▸ scheduledAfter.1, fun other member =>
        sameRunning ▸ scheduledAfter.2 other member⟩
    rw [← sameView]
    split
    · exact ⟨.refl, scheduledLast⟩
    · exact ⟨.refl, scheduledLast⟩
  · exact ⟨.refl, scheduled⟩

end Visits

end KvOffload.EngineAdmissions
