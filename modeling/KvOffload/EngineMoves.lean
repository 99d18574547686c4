import KvOffload.EngineBudgets
import KvOffload.EngineDesk
import KvOffload.FallibleChains

/-!
# Operations as moves

Every operation of a step is a chain of moves of the desk, or it raises because of an answer or of
a waiting request without tokens.
-/

namespace KvOffload.EngineMoves

open KvOffload KvOffload.Base KvOffload.EngineState KvOffload.EngineScheduling
open KvOffload.EnginePlaces KvOffload.EngineDesk KvOffload.EngineBudgets
open KvOffload.FallibleChains

set_option autoImplicit false

variable {Q : Type}

/-- The steps in flight stand beside the engine. -/
def deskOf (engine : Engine Q) (running waiting skipped : Multiset ReqId)
    (flight : List InFlight) : Desk where
  config := engine.config
  requests := engine.requests
  running := running
  waiting := waiting
  skipped := skipped
  streaming := engine.numWaitingForStreamingInput
  finishedReqIds := engine.finishedReqIds
  schedSeq := engine.schedStepSeq
  processedSeq := engine.processedStepSeq
  deferred := engine.deferredFrees
  calls := engine.calls
  flight := flight

/-- The errors of a step: an answer brings them about, or a waiting request that has no token left
to compute. -/
def Answered (problem : EngineError) : Prop := problem = .answered ∨ problem = .noNewTokens

section Queues

variable [LawfulRequestQueue Q]

def queued (queue : Q) : Multiset ReqId := (RequestQueue.items queue : Multiset ReqId)

theorem queued_empty : queued (RequestQueue.empty : Q) = 0 := by
  unfold queued
  rw [LawfulRequestQueue.items_empty]
  rfl

theorem queued_prepend (queue : Q) (request : Request) :
    queued (RequestQueue.prepend queue request) = request.requestId ::ₘ queued queue :=
  Multiset.coe_eq_coe.mpr (LawfulRequestQueue.items_prepend queue request)

theorem queued_prepend_all (queue other : Q) :
    queued (RequestQueue.prependAll queue other) = queued other + queued queue :=
  Multiset.coe_eq_coe.mpr (LawfulRequestQueue.items_prepend_all queue other)

theorem queued_pop {queue : Q} {reqId : ReqId} (first : RequestQueue.peek queue = some reqId) :
    queued queue = reqId ::ₘ queued (RequestQueue.pop queue) :=
  Multiset.coe_eq_coe.mpr (LawfulRequestQueue.items_peek queue reqId first)

/-- The desk of an engine between its operations; `parked` are the requests that the step keeps
apart. -/
def view (engine : Engine Q) (parked : Multiset ReqId) (flight : List InFlight) : Desk :=
  deskOf engine engine.running (queued engine.waiting) (queued engine.skippedWaiting + parked)
    flight

end Queues

section Calls

variable {engine : Engine Q} {running waiting skipped : Multiset ReqId} {flight : List InFlight}
  {request : Request}

theorem told_moves {call : EngineCall} (plain : call.isPlain = true)
    (served : ∀ reqId, call.serves = some reqId → ∃ request,
      engine.requests.get? reqId = some request ∧ request.isFinished = false) :
    Moves (deskOf engine running waiting skipped flight)
      (deskOf (engine.query call).2 running waiting skipped flight) :=
  .single (.told plain served)

theorem set_moves {old : Request}
    (found : engine.requests.get? request.requestId = some old) (account : SameAccount old request)
    (same : request.status = old.status) (session : Rested request) :
    Moves (deskOf engine running waiting skipped flight)
      (deskOf (engine.setRequest request) running waiting skipped flight) :=
  .single (.edited found account same session)

/-- The blocks of a request go back, at once or deferred; only calls and deferred blocks change. -/
theorem free_request_blocks_moves (streaming : Int)
    (found : engine.requests.get? request.requestId = some request) :
    ∃ calls deferred, engine.freeRequestBlocks request =
        { engine with calls := calls, deferredFrees := deferred } ∧
      Moves ((deskOf engine running waiting skipped flight).place running waiting skipped streaming)
        ((deskOf (engine.freeRequestBlocks request) running waiting skipped flight).place running
          waiting skipped streaming) := by
  unfold Engine.freeRequestBlocks
  split
  · rename_i settled
    refine ⟨_, _, rfl, .single (.freed found ?_)⟩
    rcases settled with off | processed
    · exact .inl off
    · exact .inr (.inl processed)
  · have deferred := @Move.deferred
      ((deskOf engine running waiting skipped flight).place running waiting skipped streaming)
      request (engine.answers engine.calls.length).blockIds found
    dsimp only [Engine.query]
    split
    · rename_i nothing
      rw [if_pos nothing] at deferred
      exact ⟨_, _, rfl, .single deferred⟩
    · rename_i some
      rw [if_neg some] at deferred
      exact ⟨_, _, rfl, .single deferred⟩

variable [LawfulRequestQueue Q]

/-- A running request is preempted: the queue of the waiting ones gains it. -/
theorem preempt_request_moves (dropStaleOutput : Bool)
    (found : engine.requests.get? request.requestId = some request)
    (ran : request.status = .running) :
    ∃ after, engine.preemptRequest request dropStaleOutput = .ok after ∧
      Moves (deskOf engine running (queued engine.waiting) skipped flight)
        (deskOf after (running.erase request.requestId) (queued after.waiting) skipped flight) ∧
      after.config = engine.config ∧ after.running = engine.running ∧
      after.skippedWaiting = engine.skippedWaiting ∧
      after.requests = engine.requests.set request.requestId
        (Engine.preempted request dropStaleOutput) := by
  obtain ⟨calls, deferred, same, moves⟩ := @free_request_blocks_moves _ engine running
    (queued engine.waiting) skipped flight _ engine.numWaitingForStreamingInput found
  have chain : Moves (deskOf engine running (queued engine.waiting) skipped flight)
      (deskOf (engine.freeRequestBlocks request) running (queued engine.waiting) skipped flight) := by
    rw [same] at moves ⊢
    exact moves
  unfold Engine.preemptRequest
  rw [if_neg (not_not.mpr ran)]
  refine ⟨_, rfl, chain.tail ?_, ?_⟩
  · have preempted := @Move.preempted
      (deskOf (engine.freeRequestBlocks request) running (queued engine.waiting) skipped flight)
      request dropStaleOutput (by rw [same]; exact found) ran
    have gains : queued (RequestQueue.prepend (engine.freeRequestBlocks request).waiting
        (Engine.preempted request dropStaleOutput)) =
        request.requestId ::ₘ queued engine.waiting := by
      rw [same]
      exact queued_prepend _ _
    show Move _ (deskOf _ _ (queued (RequestQueue.prepend _ _)) _ _)
    dsimp only [Engine.setRequest]
    rw [gains]
    exact preempted
  · rw [same]
    exact ⟨rfl, rfl, rfl, rfl⟩

end Calls

section Desk

variable {before after : Desk}

theorem config_move (move : Move before after) : after.config = before.config := by
  cases move with
  | copied blocks => split <;> rfl
  | _ => rfl

theorem config_moves (moves : Moves before after) : after.config = before.config := by
  induction moves with
  | refl => rfl
  | tail _ move ih => exact (config_move move).trans ih

end Desk

section Running

variable [LawfulRequestQueue Q] {engine : Engine Q} {pass : Pass} {budget : Int}
  {visited rest : List ReqId} {reqId taken : ReqId} {parked : Multiset ReqId}
  {flight : List InFlight}

/-- The loop over the running requests stands between those it has visited and the rest; only
visited ones have tokens. -/
structure Cursor (engine : Engine Q) (budget : Int) (pass : Pass) (visited rest : List ReqId) :
    Prop where
  running : engine.running = visited ++ rest
  balanced : Balanced engine.config budget pass
  given : ∀ reqId ∈ pass.numScheduledTokens.keys, reqId ∈ visited
  noneNew : pass.scheduledNewReqs = [] ∧ pass.scheduledResumedReqs = []
  caughtUp : ∀ reqId ∈ rest, ∀ request, engine.requests.get? reqId = some request →
    CaughtUp engine.config request

theorem erase_append_of_nodup {left right : List ReqId} (distinct : (left ++ right).Nodup)
    (taken : ReqId) : (left ++ right).erase taken = left.erase taken ++ right.erase taken := by
  by_cases inLeft : taken ∈ left
  · have notRight : taken ∉ right := fun inRight =>
      (List.nodup_append.mp distinct).2.2 taken inLeft taken inRight rfl
    rw [List.erase_append_left _ inLeft, List.erase_of_not_mem notRight]
  · rw [List.erase_append_right _ inLeft, List.erase_of_not_mem inLeft]

theorem drop_last_eq_erase {ids : List ReqId} (distinct : ids.Nodup)
    (last : ids.getLast? = some taken) : ids.dropLast = ids.erase taken := by
  obtain ⟨front, rfl⟩ := List.getLast?_eq_some_iff.mp last
  have separate : taken ∉ front := fun member =>
    (List.nodup_append.mp distinct).2.2 taken member taken List.mem_cons_self rfl
  rw [List.dropLast_concat, List.erase_append_right _ separate, List.erase_cons_head,
    List.append_nil]

theorem least_urgent_mem {requests : List Request} {request : Request}
    (least : leastUrgent requests = some request) : request ∈ requests := by
  induction requests with
  | nil => cases least
  | cons first others ih =>
      unfold leastUrgent at least
      cases other : leastUrgent others with
      | none =>
          rw [other] at least
          cases least
          exact List.mem_cons_self
      | some later =>
          rw [other] at least ih
          simp only at least
          split at least
          · cases least
            exact List.mem_cons_of_mem _ (ih rfl)
          · cases least
            exact List.mem_cons_self

theorem least_urgent_none {requests : List Request} (none : leastUrgent requests = none) :
    requests = [] := by
  cases requests with
  | nil => rfl
  | cons first others =>
      unfold leastUrgent at none
      split at none
      · cases none
      · split at none <;> cases none

/-- While a request runs, a running one can be preempted. -/
theorem victim_running (filed : (view engine parked flight).Filed) (runs : engine.running ≠ []) :
    ∃ taken ∈ engine.running, victim engine = some taken := by
  have tracked : ∀ reqId ∈ engine.running, ∃ request,
      engine.requests.get? reqId = some request ∧ request.status = .running :=
    fun reqId member => (Filed.mem_running filed).mp (Multiset.mem_coe.mpr member)
  unfold victim
  cases engine.config.policy with
  | fcfs =>
      cases last : engine.running.getLast? with
      | none => exact absurd (List.getLast?_eq_none_iff.mp last) runs
      | some taken => exact ⟨taken, List.mem_of_getLast? last, rfl⟩
  | priority =>
      cases least : leastUrgent (engine.running.filterMap engine.requests.get?) with
      | none =>
          obtain ⟨first, member⟩ := List.exists_mem_of_ne_nil _ runs
          obtain ⟨request, found, _⟩ := tracked first member
          have listed : request ∈ engine.running.filterMap engine.requests.get? :=
            List.mem_filterMap.mpr ⟨first, member, found⟩
          rw [least_urgent_none least] at listed
          cases listed
      | some request =>
          obtain ⟨reqId, member, found⟩ := List.mem_filterMap.mp (least_urgent_mem least)
          refine ⟨request.requestId, ?_, rfl⟩
          rw [filed.ids reqId request found]
          exact member

omit [LawfulRequestQueue Q] in
/-- Whoever is taken, the loop stands where it stood. -/
theorem take_victim_ok (cursor : Cursor engine budget pass visited (reqId :: rest))
    (distinct : engine.running.Nodup) (chosen : victim engine = some taken) :
    ∃ restored reqIndex, takeVictim engine pass visited.length taken =
        .ok ({ engine with running := engine.running.erase taken }, restored, reqIndex) ∧
      Balanced engine.config budget restored ∧ pass.tokenBudget ≤ restored.tokenBudget ∧
      pass.inputBudget ≤ restored.inputBudget ∧
      (restored.scheduledNewReqs = [] ∧ restored.scheduledResumedReqs = []) ∧
      (∀ other ∈ restored.numScheduledTokens.keys, other ∈ visited.erase taken) ∧
      (taken ≠ reqId → reqIndex = (visited.erase taken).length) := by
  have balanced := cursor.balanced
  have separate := (List.nodup_append.mp (cursor.running ▸ distinct)).2.2
  have visitedDistinct := (List.nodup_append.mp (cursor.running ▸ distinct)).1
  unfold victim at chosen
  unfold takeVictim
  cases policy : engine.config.policy with
  | fcfs =>
      rw [policy] at chosen
      have last : engine.running.getLast? = some taken := chosen
      have notVisited : taken ∉ visited := by
        rw [cursor.running, List.getLast?_append_of_ne_nil _ (List.cons_ne_nil _ _)] at last
        exact fun member => separate taken member taken (List.mem_of_getLast? last) rfl
      rw [List.erase_of_not_mem notVisited]
      refine ⟨pass, visited.length, ?_, balanced, le_rfl, le_rfl, cursor.noneNew, cursor.given,
        fun _ => rfl⟩
      rw [drop_last_eq_erase distinct last]
  | priority =>
      have index : (if engine.running.idxOf taken < visited.length then visited.length - 1
          else visited.length) = (visited.erase taken).length := by
        rw [cursor.running]
        by_cases member : taken ∈ visited
        · have before := List.idxOf_lt_length_iff.mpr member
          rw [List.idxOf_append_of_mem member, if_pos before, List.length_erase_of_mem member]
        · rw [List.idxOf_append_of_notMem member, if_neg (by omega),
            List.erase_of_not_mem member]
      have scheduled := balanced.scheduled
      rw [cursor.noneNew.1, cursor.noneNew.2, List.nil_append] at scheduled
      dsimp only
      split
      · rename_i ran
        have listed := scheduled.mem_iff.mpr ran
        obtain ⟨restored, found⟩ := Option.isSome_iff_exists.mp
          ((OrderedMap.mem_keys_iff _ _).mp listed)
        rw [found]
        have positive := balanced.positive taken restored found
        refine ⟨pass.restore engine.config taken restored, _, rfl, balanced.restored found ran,
          ?_, ?_, cursor.noneNew, fun other member => ?_, fun _ => index⟩
        · show pass.tokenBudget ≤ pass.tokenBudget + restored
          omega
        · show pass.inputBudget ≤ pass.inputBudget + (restored + engine.config.draftSlots)
          omega
        · change other ∈ (pass.numScheduledTokens.erase taken).keys at member
          rw [OrderedMap.mem_keys_erase] at member
          exact (List.mem_erase_of_ne member.1).mpr (cursor.given other member.2)
      · rename_i idle
        refine ⟨pass, _, rfl, balanced, le_rfl, le_rfl, cursor.noneNew, fun other member => ?_,
          fun _ => index⟩
        have differs : other ≠ taken := fun same => idle (scheduled.mem_iff.mp (same ▸ member))
        exact (List.mem_erase_of_ne differs).mpr (cursor.given other member)

/-- What a step has given is balanced, and those who got it run. -/
def Scheduled (engine : Engine Q) (budget : Int) (pass : Pass) : Prop :=
  Balanced engine.config budget pass ∧
    ∀ reqId ∈ pass.numScheduledTokens.keys, reqId ∈ engine.running

/-- Where the loop stands once the request has its blocks, or has been preempted itself. -/
def Allocated (engine : Engine Q) (budget : Int) (pass : Pass) (reqId : ReqId) :
    Option (List Nat) × Engine Q × Pass × Nat → Prop
  | (some _, after, left, reqIndex) => ∃ visited rest,
      Cursor after budget left visited (reqId :: rest) ∧ reqIndex = visited.length ∧
      after.requests.get? reqId = engine.requests.get? reqId ∧
      pass.tokenBudget ≤ left.tokenBudget ∧ pass.inputBudget ≤ left.inputBudget
  | (none, after, left, _) => Scheduled after budget left

/-- A victim is preempted, and the loop stands where it stood. -/
theorem preempt_victim_ok (cursor : Cursor engine budget pass visited (reqId :: rest))
    (filed : (view engine parked flight).Filed) (present : taken ∈ engine.running)
    (chosen : victim engine = some taken) (dropStaleOutput : Bool) :
    ∃ middle restored reqIndex request after,
      takeVictim engine pass visited.length taken = .ok (middle, restored, reqIndex) ∧
      middle.request taken = .ok request ∧
      middle.preemptRequest request dropStaleOutput = .ok after ∧
      middle.config = engine.config ∧
      Moves (view engine parked flight) (view after parked flight) ∧
      after.running.length + 1 = engine.running.length ∧
      pass.tokenBudget ≤ restored.tokenBudget ∧ pass.inputBudget ≤ restored.inputBudget ∧
      Scheduled after budget restored ∧
      (taken ≠ reqId → reqIndex = (visited.erase taken).length ∧
        after.requests.get? reqId = engine.requests.get? reqId ∧
        Cursor after budget restored (visited.erase taken) (reqId :: rest.erase taken)) := by
  have distinct : engine.running.Nodup := Multiset.coe_nodup.mp (Filed.running_nodup filed)
  obtain ⟨request, found, ran⟩ := (Filed.mem_running filed).mp (Multiset.mem_coe.mpr present)
  have own : request.requestId = taken := filed.ids taken request found
  obtain ⟨restored, reqIndex, took, balanced, moreTokens, moreInputs, noneNew, given, index⟩ :=
    take_victim_ok cursor distinct chosen
  obtain ⟨after, done, moves, sameConfig, sameRunning, sameSkipped, sameRequests⟩ :=
    @preempt_request_moves Q { engine with running := engine.running.erase taken } engine.running
      (queued engine.skippedWaiting + parked) flight request _ dropStaleOutput (own ▸ found) ran
  have erased : after.running = visited.erase taken ++ (reqId :: rest).erase taken := by
    rw [sameRunning]
    show engine.running.erase taken = _
    rw [cursor.running]
    exact erase_append_of_nodup (cursor.running ▸ distinct) taken
  have others : ∀ other, other ≠ taken →
      after.requests.get? other = engine.requests.get? other := by
    intro other differs
    rw [sameRequests, own]
    exact OrderedMap.get_set_of_ne _ _ differs
  rw [← sameConfig] at balanced
  refine ⟨_, restored, reqIndex, request, after, took, ?_, done, rfl, ?_, ?_, moreTokens,
    moreInputs, ⟨balanced, fun other member => ?_⟩, fun differs => ⟨index differs,
      others reqId differs.symm, ?_⟩⟩
  · unfold Engine.request
    dsimp only
    rw [show engine.requests.get? taken = some request from found]
  · rw [own, Multiset.coe_erase] at moves
    show Moves _ (deskOf after after.running _ _ _)
    rw [sameRunning, sameSkipped]
    exact moves
  · rw [sameRunning]
    exact List.length_erase_add_one present
  · rw [erased]
    exact List.mem_append_left _ (given other member)
  · rw [List.erase_cons_tail (by simpa using differs.symm)] at erased
    refine ⟨erased, balanced, given, noneNew, fun other member earlier earlierFound => ?_⟩
    have unlike : other ≠ taken := by
      rintro rfl
      have remains := (List.nodup_append.mp (cursor.running ▸ distinct)).2.1
      rcases List.mem_cons.mp member with rfl | later
      · exact differs rfl
      · exact (List.nodup_cons.mp remains).2.not_mem_erase later
    rw [others other unlike] at earlierFound
    rw [sameConfig]
    refine cursor.caughtUp other ?_ earlier earlierFound
    rcases List.mem_cons.mp member with rfl | later
    · exact List.mem_cons_self
    · exact List.mem_cons_of_mem _ (List.mem_of_mem_erase later)

theorem allocate_or_preempt_leads (numNewTokens : Int) (fuel : Nat)
    (cursor : Cursor engine budget pass visited (reqId :: rest))
    (filed : (view engine parked flight).Filed) (enough : engine.running.length ≤ fuel) :
    Leads Move Answered (view engine parked flight) (fun result => view result.2.1 parked flight)
      (Allocated engine budget pass reqId)
      (allocateOrPreempt reqId numNewTokens fuel engine pass visited.length) := by
  induction fuel generalizing engine pass visited rest with
  | zero =>
      rw [cursor.running] at enough
      simp at enough
  | succ fuel ih =>
      unfold allocateOrPreempt
      generalize asks : EngineCall.allocateSlots reqId numNewTokens 0 0
        engine.config.numLookaheadTokens false false = call
      have asked : Moves (view engine parked flight)
          (view (engine.query call).2 parked flight) := by
        refine told_moves ?_ ?_
        · rw [← asks]
          rfl
        · intro served serves
          rw [← asks] at serves
          cases serves
      have cursorNow : Cursor (engine.query call).2 budget pass visited (reqId :: rest) :=
        ⟨cursor.running, cursor.balanced, cursor.given, cursor.noneNew, cursor.caughtUp⟩
      dsimp only
      split
      · exact ⟨asked, visited, rest, cursorNow, rfl, rfl, le_rfl, le_rfl⟩
      · have filedNow := filed_moves filed asked
        have runs : engine.running ≠ [] := by
          rw [cursor.running]
          exact List.append_ne_nil_of_right_ne_nil _ (List.cons_ne_nil _ _)
        obtain ⟨taken, present, chosen⟩ := victim_running filedNow runs
        obtain ⟨middle, restored, reqIndex, request, after, took, tracked, done, sameConfig, moves,
          fewer, moreTokens, moreInputs, scheduled, stays⟩ := preempt_victim_ok cursorNow filedNow
            present chosen (engine.query call).2.config.requiresKvDelivery
        rw [chosen]
        simp only [took, ok_bind, tracked, sameConfig, done]
        have chain := asked.trans moves
        split
        · exact ⟨chain, scheduled.1.noted _, scheduled.2⟩
        · rename_i differs
          obtain ⟨index, sameRequest, cursorAfter⟩ := stays differs
          rw [index]
          have shorter : after.running.length ≤ fuel := by
            have before : (engine.query call).2.running.length ≤ fuel + 1 := enough
            omega
          have cursorLater : Cursor after budget
              { restored with preemptedReqs := restored.preemptedReqs ++ [taken] }
              (visited.erase taken) (reqId :: rest.erase taken) :=
            ⟨cursorAfter.running, cursorAfter.balanced.noted _, cursorAfter.given,
              cursorAfter.noneNew, cursorAfter.caughtUp⟩
          refine Leads.after chain ((ih cursorLater (filed_moves filed chain) shorter).weaken ?_)
          intro result _ reached
          refine ⟨.refl, ?_⟩
          obtain ⟨blocks, last, left, stop⟩ := result
          cases blocks with
          | none => exact reached
          | some blocks =>
              obtain ⟨before, later, stands, atIndex, same, tokens, inputs⟩ := reached
              exact ⟨before, later, stands, atIndex, same.trans sameRequest,
                moreTokens.trans tokens, moreInputs.trans inputs⟩

omit [LawfulRequestQueue Q] in
theorem Cursor.scheduled (cursor : Cursor engine budget pass visited rest) :
    Scheduled engine budget pass :=
  ⟨cursor.balanced, fun other member =>
    cursor.running ▸ List.mem_append_left _ (cursor.given other member)⟩

omit [LawfulRequestQueue Q] in
/-- The loop moves on past a request. -/
theorem Cursor.passed (cursor : Cursor engine budget pass visited (reqId :: rest)) :
    Cursor engine budget pass (visited ++ [reqId]) rest :=
  ⟨by rw [cursor.running, List.append_assoc]; rfl, cursor.balanced,
    fun other member => List.mem_append_left _ (cursor.given other member), cursor.noneNew,
    fun other member => cursor.caughtUp other (List.mem_cons_of_mem _ member)⟩

/-- A running request is given its tokens. -/
theorem grant_running_moves (cursor : Cursor engine budget pass visited (reqId :: rest))
    (filed : (view engine parked flight).Filed) {request : Request} {numNewTokens : Int}
    (found : engine.requests.get? reqId = some request) (positive : 0 < numNewTokens)
    (withinTokens : numNewTokens ≤ pass.tokenBudget)
    (withinInputs : numNewTokens + engine.config.draftSlots ≤ pass.inputBudget)
    (blocks : List Nat) :
    Moves (view engine parked flight)
        (view (grantRunning engine pass request blocks numNewTokens).1 parked flight) ∧
      Cursor (grantRunning engine pass request blocks numNewTokens).1 budget
        (grantRunning engine pass request blocks numNewTokens).2 (visited ++ [reqId]) rest := by
  obtain rfl : reqId = request.requestId := (filed.ids reqId request found).symm
  have distinct : engine.running.Nodup := Multiset.coe_nodup.mp (Filed.running_nodup filed)
  rw [cursor.running] at distinct
  have fresh : pass.numScheduledTokens.get? request.requestId = none := by
    rw [← Option.not_isSome_iff_eq_none, ← OrderedMap.mem_keys_iff]
    exact fun listed => (List.nodup_append.mp distinct).2.2 _ (cursor.given _ listed)
      _ List.mem_cons_self rfl
  have given : ∀ other ∈ (pass.numScheduledTokens.set request.requestId numNewTokens).keys,
      other ∈ visited ++ [request.requestId] := by
    intro other member
    rcases (OrderedMap.mem_keys_set _ _ _ _).mp member with rfl | earlier
    · exact List.mem_append_right _ List.mem_cons_self
    · exact List.mem_append_left _ (cursor.given other earlier)
  have running : engine.running = visited ++ [request.requestId] ++ rest := cursor.passed.running
  have balanced : ∀ charged : Pass, charged.scheduledNewReqs = pass.scheduledNewReqs →
      charged.scheduledResumedReqs = pass.scheduledResumedReqs →
      charged.scheduledRunningReqs = pass.scheduledRunningReqs ++ [request.requestId] →
      charged.numScheduledTokens = pass.numScheduledTokens.set request.requestId numNewTokens →
      charged.tokenBudget = pass.tokenBudget - numNewTokens →
      charged.inputBudget = pass.inputBudget - (numNewTokens + engine.config.draftSlots) →
      Balanced engine.config budget charged := by
    intro charged sameNew sameResumed moreRunning tokensSet tokens inputs
    refine cursor.balanced.charged fresh positive withinTokens withinInputs ?_ tokensSet tokens
      inputs
    rw [sameNew, sameResumed, moreRunning, ← List.append_assoc]
  unfold grantRunning Pass.charge
  dsimp only
  split
  · exact ⟨.refl, running, balanced _ rfl rfl rfl rfl rfl rfl, given, cursor.noneNew,
      cursor.passed.caughtUp⟩
  · have caughtUp : ∀ other ∈ rest, ∀ later,
        (engine.setRequest { request with specTokenIds := [] }).requests.get? other = some later →
        CaughtUp engine.config later := by
      intro other member later laterFound
      have unlike : other ≠ request.requestId := by
        rintro rfl
        exact (List.nodup_cons.mp (List.nodup_append.mp distinct).2.1).1 member
      change (engine.requests.set request.requestId _).get? other = some later at laterFound
      rw [OrderedMap.get_set_of_ne _ _ unlike] at laterFound
      exact cursor.caughtUp other (List.mem_cons_of_mem _ member) later laterFound
    refine ⟨set_moves found ⟨rfl, rfl, rfl, rfl⟩ rfl
      (filed.sessions _ request found), running, ?_, ?_, ?_, caughtUp⟩
    · split
      · exact balanced _ rfl rfl rfl rfl rfl rfl
      · exact balanced _ rfl rfl rfl rfl rfl rfl
    · split
      · exact given
      · exact given
    · split
      · exact cursor.noneNew
      · exact cursor.noneNew

theorem schedule_running_leads (deferPrefills : Bool) (fuel : Nat)
    (cursor : Cursor engine budget pass visited rest)
    (filed : (view engine parked flight).Filed) :
    Leads Move Answered (view engine parked flight) (fun result => view result.1 parked flight)
      (fun result => Scheduled result.1 budget result.2)
      (scheduleRunning deferPrefills fuel engine pass visited.length) := by
  induction fuel generalizing engine pass visited rest with
  | zero => exact ⟨.refl, cursor.scheduled⟩
  | succ fuel ih =>
      unfold scheduleRunning
      cases rest with
      | nil =>
          rw [cursor.running, List.append_nil, List.getElem?_eq_none le_rfl]
          exact ⟨.refl, cursor.scheduled⟩
      | cons reqId rest =>
          have next : engine.running[visited.length]? = some reqId := by
            rw [cursor.running, List.getElem?_append_right le_rfl, Nat.sub_self]
            rfl
          rw [next]
          dsimp only
          split
          · exact ⟨.refl, cursor.scheduled⟩
          · rename_i left
            have present : reqId ∈ engine.running := List.mem_of_getElem? next
            obtain ⟨request, found, ran⟩ :=
              (Filed.mem_running filed).mp (Multiset.mem_coe.mpr present)
            have asks : engine.request reqId = .ok request := by
              unfold Engine.request
              rw [show engine.requests.get? reqId = some request from found]
            obtain ⟨nonneg, withinTokens, withinInputs⟩ := running_tokens_bounds engine pass
              (cursor.caughtUp reqId List.mem_cons_self request found) (by omega) (by omega)
            simp only [asks, ok_bind]
            split
            · have passed := ih cursor.passed filed
              rw [List.length_append] at passed
              exact passed
            · rename_i wanted
              refine Leads.bind (allocate_or_preempt_leads _ _ cursor filed le_rfl) ?_
              rintro ⟨blocks, after, restored, reqIndex⟩ moves allocated
              have filedAfter := filed_moves filed moves
              cases blocks with
              | none => exact ⟨.refl, allocated⟩
              | some blocks =>
                  obtain ⟨before, later, stands, rfl, same, tokens, inputs⟩ := allocated
                  have sameConfig : after.config = engine.config := config_moves moves
                  have positive : 0 < runningTokens engine pass request := by omega
                  obtain ⟨granted, cursorAfter⟩ := grant_running_moves stands filedAfter
                    (same.trans found) positive (by omega) (by rw [sameConfig]; omega) blocks
                  have rest := ih cursorAfter (filed_moves filedAfter granted)
                  rw [List.length_append] at rest
                  exact Leads.after granted rest

end Running

end KvOffload.EngineMoves
