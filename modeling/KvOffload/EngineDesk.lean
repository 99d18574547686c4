import KvOffload.EngineScheduling
import KvOffload.EnginePlaces
import Mathlib.Logic.Relation

/-!
# Moves of the engine scheduler

What one elementary change of the scheduler does to the requests, to their places, to the steps in
flight and to the calls that leave it. Every operation is a chain of such moves, so that what the
moves keep holds in every run.
-/

namespace KvOffload.EngineDesk

open KvOffload KvOffload.Base KvOffload.EngineState KvOffload.EngineScheduling
open KvOffload.EnginePlaces

set_option autoImplicit false

/-- A request in an outstanding step: its tokens, and how often it had been preempted when the step
was made. -/
structure InFlight where
  reqId : ReqId
  tokens : Int
  epoch : Nat

/-- The scheduler without the order in its queues, and the steps in flight, the oldest first. -/
structure Desk where
  config : EngineConfig
  requests : OrderedMap ReqId Request
  running : Multiset ReqId
  waiting : Multiset ReqId
  skipped : Multiset ReqId
  streaming : Int
  finishedReqIds : List ReqId
  schedSeq : Nat
  processedSeq : Nat
  deferred : List (Nat × List Nat)
  calls : List EngineCall
  flight : List InFlight

namespace Desk

variable (desk : Desk)

def tell (call : EngineCall) : Desk := { desk with calls := desk.calls ++ [call] }

def set (request : Request) : Desk :=
  { desk with requests := desk.requests.set request.requestId request }

def place (running waiting skipped : Multiset ReqId) (streaming : Int) : Desk :=
  { desk with running := running, waiting := waiting, skipped := skipped, streaming := streaming }

/-- The connector is told that the request ends. -/
def report (reqId : ReqId) : Desk :=
  { desk.tell (.requestFinished reqId) with
    finishedReqIds := desk.finishedReqIds.insert reqId }

def withFlight (flight : List InFlight) : Desk := { desk with flight := flight }

def withDeferred (deferred : List (Nat × List Nat)) : Desk := { desk with deferred := deferred }

def Filed : Prop :=
  EnginePlaces.Filed desk.config.maxNumRunningReqs desk.requests desk.running desk.waiting
    desk.skipped desk.streaming

end Desk

/-- A change that leaves the numbers of outstanding tokens and steps. -/
structure SameAccount (old request : Request) : Prop where
  inFlight : request.numInFlightTokens = old.numInFlightTokens
  stale : request.numStaleOutputTokens = old.numStaleOutputTokens
  epoch : request.numPreemptions = old.numPreemptions
  seq : request.lastSchedSeq = old.lastSchedSeq

/-- The output of a step has arrived for a request. -/
structure Drained (entry : InFlight) (old request : Request) : Prop where
  inFlight : request.numInFlightTokens = old.numInFlightTokens - entry.tokens
  stale : request.numStaleOutputTokens = if 0 < old.numStaleOutputTokens then
    old.numStaleOutputTokens - entry.tokens else old.numStaleOutputTokens
  epoch : request.numPreemptions = old.numPreemptions
  seq : request.lastSchedSeq = old.lastSchedSeq

/-- One elementary change. -/
inductive Move : Desk → Desk → Prop where
  | told {desk : Desk} {call : EngineCall} (plain : call.isPlain = true)
      (served : ∀ reqId, call.serves = some reqId → ∃ request,
        desk.requests.get? reqId = some request ∧ request.isFinished = false) :
      Move desk (desk.tell call)
  | edited {desk : Desk} {old request : Request}
      (found : desk.requests.get? request.requestId = some old) (account : SameAccount old request)
      (same : request.status = old.status)
      (session : Rested request) :
      Move desk (desk.set request)
  | requeued {desk : Desk} {old request : Request} {streaming : Int}
      (found : desk.requests.get? request.requestId = some old) (account : SameAccount old request)
      (queuedBefore : waits old = 1) (queued : waits request = 1)
      (unblocked : request.status.isBlocked = true → request.requestId ∉ desk.waiting)
      (session : Rested request)
      (counted : streaming + streams old = desk.streaming + streams request)
      (fewer : streaming ≤ desk.streaming) :
      Move desk ((desk.set request).place desk.running desk.waiting desk.skipped streaming)
  | skipped {desk : Desk} {reqId : ReqId} {waiting : Multiset ReqId}
      (stands : desk.waiting = reqId ::ₘ waiting) :
      Move desk (desk.place desk.running waiting (reqId ::ₘ desk.skipped) desk.streaming)
  | preempted {desk : Desk} {old : Request} (dropStaleOutput : Bool)
      (found : desk.requests.get? old.requestId = some old) (ran : old.status = .running) :
      Move desk ((desk.set (Engine.preempted old dropStaleOutput)).place
        (desk.running.erase old.requestId) (old.requestId ::ₘ desk.waiting) desk.skipped
        desk.streaming)
  | admitted {desk : Desk} {old request : Request} {skipped : Multiset ReqId}
      (found : desk.requests.get? request.requestId = some old) (account : SameAccount old request)
      (stands : desk.skipped = request.requestId ::ₘ skipped)
      (unblocked : old.status.isBlocked = false) (runsNow : request.status = .running)
      (room : desk.running.card + desk.streaming < desk.config.maxNumRunningReqs) :
      Move desk ((desk.set request).place (request.requestId ::ₘ desk.running) desk.waiting skipped
        desk.streaming)
  | advanced {desk : Desk} {old request : Request} {tokens : Int}
      (found : desk.requests.get? request.requestId = some old) (ran : old.status = .running)
      (same : request.status = old.status) (positive : 0 < tokens)
      (inFlight : request.numInFlightTokens = old.numInFlightTokens + tokens)
      (stale : request.numStaleOutputTokens = old.numStaleOutputTokens)
      (epoch : request.numPreemptions = old.numPreemptions)
      (seq : request.lastSchedSeq =
        if desk.config.deferBlockFree then desk.schedSeq else old.lastSchedSeq) :
      Move desk ((desk.set request).withFlight (desk.flight ++
        [⟨request.requestId, tokens, old.numPreemptions⟩]))
  | drained {desk : Desk} {old request : Request} {entry : InFlight} {rest : List InFlight}
      (oldest : desk.flight = entry :: rest)
      (own : entry.reqId = request.requestId)
      (found : desk.requests.get? request.requestId = some old)
      (same : request.status = old.status)
      (session : Rested request)
      (share : Drained entry old request) :
      Move desk ((desk.set request).withFlight rest)
  | passed {desk : Desk} {entry : InFlight} {rest : List InFlight}
      (oldest : desk.flight = entry :: rest)
      (gone : desk.requests.get? entry.reqId = none) :
      Move desk (desk.withFlight rest)
  | stopped {desk : Desk} {old request : Request}
      (found : desk.requests.get? request.requestId = some old) (account : SameAccount old request)
      (ran : old.status = .running) (ended : request.isFinished = true) :
      Move desk (((desk.set request).place (desk.running.erase request.requestId) desk.waiting
        desk.skipped desk.streaming).report request.requestId)
  | paused {desk : Desk} {old request : Request}
      (found : desk.requests.get? request.requestId = some old) (account : SameAccount old request)
      (ran : old.status = .running) (pauses : request.status = .waitingForStreamingReq)
      (session : Rested request) :
      Move desk ((desk.set request).place (desk.running.erase request.requestId) desk.waiting
        (request.requestId ::ₘ desk.skipped) (desk.streaming + 1))
  | continued {desk : Desk} {old request : Request}
      (found : desk.requests.get? request.requestId = some old) (account : SameAccount old request)
      (ran : old.status = .running) (goesOn : request.status = .waiting) :
      Move desk ((desk.set request).place (desk.running.erase request.requestId)
        (request.requestId ::ₘ desk.waiting) desk.skipped desk.streaming)
  | ended {desk : Desk} {old request : Request}
      (found : desk.requests.get? request.requestId = some old) (account : SameAccount old request)
      (queued : waits old = 1) (ended : request.isFinished = true) :
      Move desk (((desk.set request).place desk.running (desk.waiting.erase request.requestId)
        (desk.skipped.erase request.requestId) (desk.streaming - streams old)).report
          request.requestId)
  | added {desk : Desk} {request : Request} {waiting skipped : Multiset ReqId}
      (fresh : desk.requests.get? request.requestId = none) (queued : waits request = 1)
      (notStreaming : request.status ≠ .waitingForStreamingReq)
      (placed : (request.status.isBlocked = false ∧ waiting = request.requestId ::ₘ desk.waiting ∧
          skipped = desk.skipped) ∨
        (waiting = desk.waiting ∧ skipped = request.requestId ::ₘ desk.skipped))
      (unknown : EngineCall.onNewRequest request.requestId ∉ desk.calls)
      (unscheduled : request.numInFlightTokens = 0 ∧ request.numStaleOutputTokens = 0 ∧
        request.lastSchedSeq = 0) :
      Move desk (((desk.set request).place desk.running waiting skipped desk.streaming).tell
        (.onNewRequest request.requestId))
  | forgotten {desk : Desk} {request : Request}
      (found : desk.requests.get? request.requestId = some request)
      (ended : request.isFinished = true) :
      Move desk { desk with requests := desk.requests.erase request.requestId }
  | freed {desk : Desk} {request : Request}
      (found : desk.requests.get? request.requestId = some request)
      (settled : desk.config.deferBlockFree = false ∨ request.lastSchedSeq ≤ desk.processedSeq ∨
        request.status = .waitingForRemoteKvs) :
      Move desk (desk.tell (.free request.requestId))
  | deferred {desk : Desk} {request : Request} (blocks : List Nat)
      (found : desk.requests.get? request.requestId = some request) :
      Move desk ((desk.tell (.popBlocksForFree request.requestId)).withDeferred
        (if blocks = [] then desk.deferred else desk.deferred ++ [(desk.schedSeq, blocks)]))
  | copied {desk : Desk} (blocks : List Nat) :
      Move desk (if desk.config.deferBlockFree = false ∨ desk.schedSeq + 1 ≤ desk.processedSeq then
        desk.tell (.freeBlocks blocks)
        else desk.withDeferred (desk.deferred ++ [(desk.schedSeq + 1, blocks.reverse)]))
  | released {desk : Desk} {fence : Nat} {blocks : List Nat} {rest : List (Nat × List Nat)}
      (oldest : desk.deferred = (fence, blocks) :: rest) (passed : fence ≤ desk.processedSeq) :
      Move desk ((desk.tell (.freeBlocks blocks.reverse)).withDeferred rest)
  | sent {desk : Desk} {output : SchedulerOutput}
      (finished : output.finishedReqIds = desk.finishedReqIds)
      (live : ∀ reqId ∈ output.numScheduledTokens.keys, ∃ request,
        desk.requests.get? reqId = some request ∧ request.isFinished = false) :
      Move desk { desk.tell (.buildConnectorMeta output) with
        finishedReqIds := []
        schedSeq := if desk.config.deferBlockFree ∧ 0 < output.totalNumScheduledTokens then
          desk.schedSeq + 1 else desk.schedSeq }
  | processed {desk : Desk} :
      Move desk { desk with processedSeq := desk.processedSeq + 1 }

abbrev Moves : Desk → Desk → Prop := Relation.ReflTransGen Move

section Places

variable {before after : Desk}

/-- A move leaves every request in one place. -/
theorem filed_move (filed : before.Filed) (move : Move before after) : after.Filed := by
  cases move with
  | told _ _ => exact filed
  | edited found _ same session => exact filed.kept found same session
  | requeued found _ queuedBefore queued unblocked session counted fewer =>
      exact filed.requeued found queuedBefore queued unblocked session counted fewer
  | @skipped _ _ stands =>
      unfold Desk.Filed at filed
      rw [stands] at filed
      exact filed.skip
  | preempted _ found ran => exact Filed.preempted filed found ran rfl
  | @admitted _ _ _ found _ stands unblocked runsNow room =>
      unfold Desk.Filed at filed
      rw [stands] at filed
      refine filed.admitted found (fun streaming => ?_) runsNow room
      rw [streaming] at unblocked
      cases unblocked
  | advanced found ran same _ _ _ _ _ =>
      refine Filed.kept filed found same fun streaming => ?_
      rw [same, ran] at streaming
      cases streaming
  | drained _ _ found same session _ => exact Filed.kept filed found same session
  | passed _ _ => exact filed
  | stopped found _ ran ended => exact filed.stopped found ran ended
  | paused found _ ran pauses session => exact filed.paused found ran pauses session
  | continued found _ ran goesOn => exact filed.continued found ran goesOn
  | ended found _ queued ended => exact filed.ended found queued ended
  | added fresh queued notStreaming placed _ _ => exact filed.added fresh queued notStreaming placed
  | forgotten found ended => exact filed.forgotten found ended
  | freed _ _ => exact filed
  | deferred _ _ => exact filed
  | copied _ =>
      split
      · exact filed
      · exact filed
  | released _ _ => exact filed
  | sent _ _ => exact filed
  | processed => exact filed

theorem filed_moves (filed : before.Filed) (moves : Moves before after) : after.Filed := by
  induction moves with
  | refl => exact filed
  | tail _ move ih => exact filed_move ih move

end Places

end KvOffload.EngineDesk
