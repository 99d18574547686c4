import KvOffload.EngineState
import KvOffload.FiniteTotals
import Mathlib.Data.Multiset.AddSub

/-!
# Places of the requests

A request that is not finished stands in exactly one queue, once: among the running ones if its
status says so, and else among the waiting or the skipped ones. A queue counts only by its
contents. The moves of one request between the queues keep this.
-/

namespace KvOffload.EnginePlaces

open KvOffload KvOffload.Base KvOffload.EngineState KvOffload.FiniteTotals

set_option autoImplicit false

def runs (request : Request) : Nat := if request.status = .running then 1 else 0

def waits (request : Request) : Nat :=
  if request.status ≠ .running ∧ request.isFinished = false then 1 else 0

def streams (request : Request) : Int := if request.status = .waitingForStreamingReq then 1 else 0

/-- Whether a request is unfinished and does not wait for the next input of its session. -/
def active (request : Request) : Int :=
  if request.isFinished = false ∧ request.status ≠ .waitingForStreamingReq then 1 else 0

theorem active_eq (request : Request) :
    (waits request : Int) - streams request + (runs request : Int) = active request := by
  unfold waits streams runs active Request.isFinished
  cases request.status <;> simp [RequestStatus.isFinished]

/-- Places that hold each request as often as its weight says. -/
theorem card_eq_map_total {requests : OrderedMap ReqId Request} {places : Multiset ReqId}
    {weight : Request → Nat}
    (counts : ∀ reqId, places.count reqId = (requests.get? reqId).elim 0 weight) :
    places.card = mapTotal requests weight := by
  rw [mapTotal, total, ← Multiset.sum_count_eq_card]
  · exact Finset.sum_congr rfl fun reqId _ => counts reqId
  · intro reqId member
    rw [List.mem_toFinset, OrderedMap.mem_keys_iff]
    by_contra missing
    rw [Option.not_isSome_iff_eq_none] at missing
    have none := counts reqId
    rw [missing] at none
    exact (Multiset.count_pos.mpr member).ne' none

theorem places_congr {request other : Request} (same : request.status = other.status) :
    runs request = runs other ∧ waits request = waits other ∧ streams request = streams other := by
  unfold runs waits streams Request.isFinished
  rw [same]
  exact ⟨rfl, rfl, rfl⟩

theorem status_of_finished {request : Request} (ended : request.isFinished = true) :
    request.status ≠ .running ∧ request.status ≠ .waitingForStreamingReq := by
  unfold Request.isFinished at ended
  refine ⟨fun other => ?_, fun other => ?_⟩
  · rw [other] at ended
    cases ended
  · rw [other] at ended
    cases ended

/-- A session that waits for its next input has no updates left. -/
def Rested (request : Request) : Prop :=
  request.status = .waitingForStreamingReq →
    request.resumable = true ∧ request.streamingQueue.getD [] = []

/-- Where the requests are. A paused session keeps its place among the running requests. -/
structure Filed (limit : Nat) (requests : OrderedMap ReqId Request)
    (running waiting skipped : Multiset ReqId) (streaming : Int) : Prop where
  ids : ∀ reqId request, requests.get? reqId = some request → request.requestId = reqId
  runningOnce : ∀ reqId, running.count reqId = (requests.get? reqId).elim 0 runs
  queuedOnce : ∀ reqId,
    waiting.count reqId + skipped.count reqId = (requests.get? reqId).elim 0 waits
  unblocked : ∀ reqId ∈ waiting, ∀ request, requests.get? reqId = some request →
    request.status.isBlocked = false
  sessions : ∀ reqId request, requests.get? reqId = some request → Rested request
  counted : streaming = mapTotal requests streams
  within : running.card + streaming ≤ limit

section Moves

variable {limit : Nat} {requests : OrderedMap ReqId Request}
  {running waiting skipped : Multiset ReqId} {streaming : Int}

theorem Filed.mem_running (filed : Filed limit requests running waiting skipped streaming)
    {reqId : ReqId} : reqId ∈ running ↔ ∃ request, requests.get? reqId = some request ∧
      request.status = .running := by
  rw [← Multiset.count_pos, filed.runningOnce]
  cases found : requests.get? reqId with
  | none => simp
  | some request => simp [runs, Nat.pos_iff_ne_zero]

theorem Filed.mem_queued (filed : Filed limit requests running waiting skipped streaming)
    {reqId : ReqId} : reqId ∈ waiting ∨ reqId ∈ skipped ↔
      ∃ request, requests.get? reqId = some request ∧ request.status ≠ .running ∧
        request.isFinished = false := by
  have count := filed.queuedOnce reqId
  rw [← Multiset.count_pos, ← Multiset.count_pos]
  cases found : requests.get? reqId with
  | none =>
      rw [found] at count
      simp only [Option.elim_none] at count
      simp only [reduceCtorEq, false_and, exists_false, iff_false]
      omega
  | some request =>
      rw [found] at count
      simp only [Option.elim_some, waits] at count
      simp only [Option.some.injEq, exists_eq_left']
      split at count
      · rename_i queued
        exact ⟨fun _ => queued, fun _ => by omega⟩
      · rename_i queued
        refine ⟨fun present => ?_, fun live => absurd live queued⟩
        omega

theorem Filed.running_nodup (filed : Filed limit requests running waiting skipped streaming) :
    running.Nodup := by
  refine Multiset.nodup_iff_count_le_one.mpr fun reqId => ?_
  rw [filed.runningOnce]
  cases requests.get? reqId with
  | none => exact Nat.zero_le _
  | some request =>
      show runs request ≤ 1
      unfold runs
      split <;> decide

theorem Filed.streaming_nonneg (filed : Filed limit requests running waiting skipped streaming) :
    0 ≤ streaming := by
  rw [filed.counted, map_total_eq_sum]
  apply List.sum_nonneg
  intro share member
  obtain ⟨request, _, rfl⟩ := List.mem_map.mp member
  unfold streams
  split
  · exact Int.one_nonneg
  · exact le_rfl

/-- One request changes, and its places with it. -/
theorem Filed.changed (filed : Filed limit requests running waiting skipped streaming)
    {request : Request} {running' waiting' skipped' : Multiset ReqId} {streaming' : Int}
    (others : ∀ other, other ≠ request.requestId → running'.count other = running.count other ∧
      waiting'.count other = waiting.count other ∧ skipped'.count other = skipped.count other)
    (ownRunning : running'.count request.requestId = runs request)
    (ownQueued : waiting'.count request.requestId + skipped'.count request.requestId =
      waits request)
    (ownOpen : request.requestId ∈ waiting' → request.status.isBlocked = false)
    (session : Rested request)
    (counted : streaming' + (requests.get? request.requestId).elim 0 streams =
      streaming + streams request)
    (within : running'.card + streaming' ≤ limit) :
    Filed limit (requests.set request.requestId request) running' waiting' skipped'
      streaming' where
  ids reqId found := by
    intro present
    rw [OrderedMap.get_set] at present
    split at present
    · rename_i same
      cases present
      exact same.symm
    · exact filed.ids reqId found present
  runningOnce reqId := by
    rw [OrderedMap.get_set]
    split
    · rename_i same
      rw [same]
      exact ownRunning
    · rename_i differs
      exact (others reqId differs).1.trans (filed.runningOnce reqId)
  queuedOnce reqId := by
    rw [OrderedMap.get_set]
    split
    · rename_i same
      rw [same]
      exact ownQueued
    · rename_i differs
      obtain ⟨_, sameWaiting, sameSkipped⟩ := others reqId differs
      rw [sameWaiting, sameSkipped]
      exact filed.queuedOnce reqId
  unblocked reqId member found := by
    intro present
    rw [OrderedMap.get_set] at present
    split at present
    · rename_i same
      cases present
      exact ownOpen (same ▸ member)
    · rename_i differs
      refine filed.unblocked reqId ?_ found present
      rw [← Multiset.count_pos] at member ⊢
      rw [← (others reqId differs).2.1]
      exact member
  sessions reqId found := by
    intro present
    rw [OrderedMap.get_set] at present
    split at present
    · cases present
      exact session
    · exact filed.sessions reqId found present
  counted := by
    have total := map_total_set requests request.requestId request streams
    have before := filed.counted
    omega
  within := within

/-- A request keeps its status, and its place with it. -/
theorem Filed.kept (filed : Filed limit requests running waiting skipped streaming)
    {old request : Request} (found : requests.get? request.requestId = some old)
    (same : request.status = old.status)
    (session : Rested request) :
    Filed limit (requests.set request.requestId request) running waiting skipped streaming := by
  obtain ⟨sameRuns, sameWaits, sameStreams⟩ := places_congr same
  refine filed.changed (fun _ _ => ⟨rfl, rfl, rfl⟩) ?_ ?_ (fun member => ?_) session ?_
    filed.within
  · rw [filed.runningOnce, found]
    exact sameRuns.symm
  · rw [filed.queuedOnce, found]
    exact sameWaits.symm
  · rw [same]
    exact filed.unblocked _ member old found
  · rw [found]
    exact congrArg (streaming + ·) sameStreams.symm

/-- A queued request gets another status with which it may stay queued. -/
theorem Filed.requeued (filed : Filed limit requests running waiting skipped streaming)
    {old request : Request} (found : requests.get? request.requestId = some old)
    (queuedBefore : waits old = 1) (queued : waits request = 1)
    (unblocked : request.status.isBlocked = true → request.requestId ∉ waiting)
    (session : Rested request)
    {streaming' : Int} (counted : streaming' + streams old = streaming + streams request)
    (fewer : streaming' ≤ streaming) :
    Filed limit (requests.set request.requestId request) running waiting skipped streaming' := by
  have notRunning : ∀ {other : Request}, waits other = 1 → runs other = 0 := by
    intro other waiting
    unfold waits at waiting
    split at waiting
    · rename_i queued
      exact if_neg queued.1
    · cases waiting
  refine filed.changed (fun _ _ => ⟨rfl, rfl, rfl⟩) ?_ ?_ (fun member => ?_) session ?_ ?_
  · rw [filed.runningOnce, found]
    exact (notRunning queuedBefore).trans (notRunning queued).symm
  · rw [filed.queuedOnce, found]
    exact queuedBefore.trans queued.symm
  · cases blocked : request.status.isBlocked with
    | true => exact absurd member (unblocked blocked)
    | false => rfl
  · rw [found]
    exact counted
  · have within := filed.within
    omega

/-- A waiting request is put with the skipped ones. -/
theorem Filed.skip {reqId : ReqId}
    (filed : Filed limit requests running (reqId ::ₘ waiting) skipped streaming) :
    Filed limit requests running waiting (reqId ::ₘ skipped) streaming where
  ids := filed.ids
  runningOnce := filed.runningOnce
  queuedOnce other := by
    have queued := filed.queuedOnce other
    rw [Multiset.count_cons] at queued ⊢
    omega
  unblocked other member := filed.unblocked other (Multiset.mem_cons_of_mem member)
  sessions := filed.sessions
  counted := filed.counted
  within := filed.within

/-- A running request stops to run, and is queued or ends. -/
theorem Filed.leaves (filed : Filed limit requests running waiting skipped streaming)
    {old request : Request} (found : requests.get? request.requestId = some old)
    (ran : old.status = .running) (leaves : request.status ≠ .running)
    {waiting' skipped' : Multiset ReqId}
    (others : ∀ other, other ≠ request.requestId →
      waiting'.count other = waiting.count other ∧ skipped'.count other = skipped.count other)
    (own : waiting'.count request.requestId + skipped'.count request.requestId =
      waiting.count request.requestId + skipped.count request.requestId + waits request)
    (unblocked : 0 < waits request → request.requestId ∈ waiting' →
      request.status.isBlocked = false)
    (session : Rested request) :
    Filed limit (requests.set request.requestId request) (running.erase request.requestId)
      waiting' skipped' (streaming + streams request) := by
  have present := filed.mem_running.mpr ⟨old, found, ran⟩
  have one := filed.runningOnce request.requestId
  have none := filed.queuedOnce request.requestId
  rw [found] at one none
  simp only [Option.elim_some, runs, waits, ran, ne_eq, not_true, false_and, if_true,
    if_false] at one none
  refine filed.changed
    (fun other differs => ⟨Multiset.count_erase_of_ne differs _, others other differs⟩)
    ?_ ?_ (fun member => ?_) session ?_ ?_
  · rw [Multiset.count_erase_self, one]
    simp [runs, leaves]
  · omega
  · have some := Multiset.count_pos.mpr member
    exact unblocked (by omega) member
  · rw [found]
    simp [streams, ran]
  · have within := filed.within
    have shorter := Multiset.card_erase_add_one present
    have positive := Multiset.card_pos_iff_exists_mem.mpr ⟨_, present⟩
    have atMost : streams request ≤ 1 := by
      unfold streams
      split <;> decide
    omega

/-- A running request is preempted. -/
theorem Filed.preempted (filed : Filed limit requests running waiting skipped streaming)
    {old request : Request} (found : requests.get? request.requestId = some old)
    (ran : old.status = .running) (isPreempted : request.status = .preempted) :
    Filed limit (requests.set request.requestId request) (running.erase request.requestId)
      (request.requestId ::ₘ waiting) skipped streaming := by
  have weights : waits request = 1 ∧ streams request = 0 := by
    simp [waits, streams, isPreempted, Request.isFinished, RequestStatus.isFinished]
  have filed := filed.leaves found ran (by simp [isPreempted])
    (fun other differs => ⟨Multiset.count_cons_of_ne differs _, rfl⟩)
    (by rw [Multiset.count_cons_self, weights.1, Nat.add_right_comm])
    (fun _ _ => by rw [isPreempted]; rfl)
    (fun waitsForMore => by simp [isPreempted] at waitsForMore)
  rwa [weights.2, add_zero] at filed

/-- A queued request starts to run. -/
theorem Filed.admitted {request : Request}
    (filed : Filed limit requests running waiting (request.requestId ::ₘ skipped) streaming)
    {old : Request} (found : requests.get? request.requestId = some old)
    (open_ : old.status ≠ .waitingForStreamingReq) (runsNow : request.status = .running)
    (room : running.card + streaming < limit) :
    Filed limit (requests.set request.requestId request) (request.requestId ::ₘ running) waiting
      skipped streaming := by
  have one := filed.queuedOnce request.requestId
  have none := filed.runningOnce request.requestId
  rw [Multiset.count_cons_self, found] at one
  rw [found] at none
  simp only [Option.elim_some, runs, waits] at one none
  have queued : old.status ≠ .running ∧ old.isFinished = false := by
    by_contra elsewhere
    rw [if_neg elsewhere] at one
    omega
  rw [if_pos queued] at one
  rw [if_neg queued.1] at none
  refine filed.changed (fun other differs => ⟨?_, rfl, ?_⟩) ?_ ?_ ?_ ?_ ?_ ?_
  · exact Multiset.count_cons_of_ne differs _
  · exact (Multiset.count_cons_of_ne differs _).symm
  · rw [Multiset.count_cons_self, none]
    simp [runs, runsNow]
  · have stays : waits request = 0 := by simp [waits, runsNow]
    omega
  · intro _
    rw [runsNow]
    rfl
  · intro waitsForMore
    rw [runsNow] at waitsForMore
    cases waitsForMore
  · rw [found]
    simp [streams, runsNow, open_]
  · rw [Multiset.card_cons]
    push_cast
    omega

/-- A running request ends. -/
theorem Filed.stopped (filed : Filed limit requests running waiting skipped streaming)
    {old request : Request} (found : requests.get? request.requestId = some old)
    (ran : old.status = .running) (ended : request.isFinished = true) :
    Filed limit (requests.set request.requestId request) (running.erase request.requestId)
      waiting skipped streaming := by
  obtain ⟨notRunning, notStreaming⟩ := status_of_finished ended
  have weights : waits request = 0 ∧ streams request = 0 := by
    simp [waits, streams, ended, notStreaming]
  have filed := filed.leaves found ran notRunning (fun _ _ => ⟨rfl, rfl⟩)
    (by rw [weights.1, Nat.add_zero]) (fun queued => absurd queued (by rw [weights.1]; decide))
    (fun waitsForMore => absurd waitsForMore notStreaming)
  rwa [weights.2, add_zero] at filed

/-- A queued request ends and leaves its queue. -/
theorem Filed.ended (filed : Filed limit requests running waiting skipped streaming)
    {old request : Request} (found : requests.get? request.requestId = some old)
    (queued : waits old = 1) (ended : request.isFinished = true) :
    Filed limit (requests.set request.requestId request) running
      (waiting.erase request.requestId) (skipped.erase request.requestId)
      (streaming - streams old) := by
  have one := filed.queuedOnce request.requestId
  have none := filed.runningOnce request.requestId
  rw [found] at one none
  simp only [Option.elim_some, queued] at one none
  have notRunning : old.status ≠ .running := by
    intro ran
    unfold waits at queued
    rw [if_neg fun both => both.1 ran] at queued
    cases queued
  have after := status_of_finished ended
  refine filed.changed (fun other differs => ⟨rfl, ?_, ?_⟩) ?_ ?_ (fun member => ?_) ?_ ?_ ?_
  · exact Multiset.count_erase_of_ne differs _
  · exact Multiset.count_erase_of_ne differs _
  · rw [none]
    simp [runs, notRunning, after.1]
  · rw [Multiset.count_erase_self, Multiset.count_erase_self]
    have stays : waits request = 0 := by simp [waits, ended]
    omega
  · have positive := Multiset.count_pos.mpr member
    rw [Multiset.count_erase_self] at positive
    omega
  · exact fun waitsForMore => absurd waitsForMore after.2
  · rw [found]
    simp [streams, after.2]
  · have within := filed.within
    have nonneg : 0 ≤ streams old := by
      unfold streams
      split <;> decide
    omega

/-- A running session pauses until its next input. -/
theorem Filed.paused (filed : Filed limit requests running waiting skipped streaming)
    {old request : Request} (found : requests.get? request.requestId = some old)
    (ran : old.status = .running) (pauses : request.status = .waitingForStreamingReq)
    (session : Rested request) :
    Filed limit (requests.set request.requestId request) (running.erase request.requestId)
      waiting (request.requestId ::ₘ skipped) (streaming + 1) := by
  have weights : waits request = 1 ∧ streams request = 1 := by
    simp [waits, streams, pauses, Request.isFinished, RequestStatus.isFinished]
  have nowhere := filed.queuedOnce request.requestId
  rw [found] at nowhere
  simp only [Option.elim_some, waits, ran, ne_eq, not_true, false_and, if_false] at nowhere
  have filed := filed.leaves found ran (by simp [pauses])
    (fun other differs => ⟨rfl, Multiset.count_cons_of_ne differs _⟩)
    (by rw [Multiset.count_cons_self, weights.1, Nat.add_assoc])
    (fun _ member => by have some := Multiset.count_pos.mpr member; omega) session
  rwa [weights.2] at filed

/-- A running session goes on with its next input. -/
theorem Filed.continued (filed : Filed limit requests running waiting skipped streaming)
    {old request : Request} (found : requests.get? request.requestId = some old)
    (ran : old.status = .running) (goesOn : request.status = .waiting) :
    Filed limit (requests.set request.requestId request) (running.erase request.requestId)
      (request.requestId ::ₘ waiting) skipped streaming := by
  have weights : waits request = 1 ∧ streams request = 0 := by
    simp [waits, streams, goesOn, Request.isFinished, RequestStatus.isFinished]
  have filed := filed.leaves found ran (by simp [goesOn])
    (fun other differs => ⟨Multiset.count_cons_of_ne differs _, rfl⟩)
    (by rw [Multiset.count_cons_self, weights.1, Nat.add_right_comm])
    (fun _ _ => by rw [goesOn]; rfl) (fun waitsForMore => by simp [goesOn] at waitsForMore)
  rwa [weights.2, add_zero] at filed

/-- A new request is queued. -/
theorem Filed.added (filed : Filed limit requests running waiting skipped streaming)
    {request : Request} (fresh : requests.get? request.requestId = none)
    (queued : waits request = 1) (notStreaming : request.status ≠ .waitingForStreamingReq)
    {waiting' skipped' : Multiset ReqId}
    (placed : (request.status.isBlocked = false ∧ waiting' = request.requestId ::ₘ waiting ∧
        skipped' = skipped) ∨
      (waiting' = waiting ∧ skipped' = request.requestId ::ₘ skipped)) :
    Filed limit (requests.set request.requestId request) running waiting' skipped' streaming := by
  have one := filed.queuedOnce request.requestId
  have none := filed.runningOnce request.requestId
  rw [fresh] at one none
  simp only [Option.elim_none] at one none
  have notRunning : request.status ≠ .running := by
    intro ran
    unfold waits at queued
    rw [if_neg fun both => both.1 ran] at queued
    cases queued
  have counted : ∀ other, waiting'.count other + skipped'.count other =
      waiting.count other + skipped.count other + if other = request.requestId then 1 else 0 := by
    intro other
    rcases placed with ⟨_, rfl, rfl⟩ | ⟨rfl, rfl⟩
    · rw [Multiset.count_cons]
      omega
    · rw [Multiset.count_cons]
      omega
  refine filed.changed (fun other differs => ⟨rfl, ?_⟩) ?_ ?_ (fun member => ?_)
    (fun waitsForMore => absurd waitsForMore notStreaming) ?_ filed.within
  · rcases placed with ⟨_, rfl, rfl⟩ | ⟨rfl, rfl⟩
    · exact ⟨Multiset.count_cons_of_ne differs _, rfl⟩
    · exact ⟨rfl, Multiset.count_cons_of_ne differs _⟩
  · rw [none]
    simp [runs, notRunning]
  · rw [counted, queued, one, if_pos rfl]
  · rcases placed with ⟨unblocked, _, _⟩ | ⟨rfl, _⟩
    · exact unblocked
    · have some := Multiset.count_pos.mpr member
      omega
  · rw [fresh]
    simp [streams, notStreaming]

/-- A finished request is forgotten. -/
theorem Filed.forgotten (filed : Filed limit requests running waiting skipped streaming)
    {reqId : ReqId} {old : Request} (found : requests.get? reqId = some old)
    (ended : old.isFinished = true) :
    Filed limit (requests.erase reqId) running waiting skipped streaming := by
  have weights : runs old = 0 ∧ waits old = 0 ∧ streams old = 0 := by
    have nowhere := status_of_finished ended
    simp [runs, waits, streams, nowhere, ended]
  refine ⟨fun other request present => ?_, fun other => ?_, fun other => ?_,
    fun other member request present => ?_, fun other request present => ?_, ?_, filed.within⟩
  · rw [OrderedMap.get_erase] at present
    split at present
    · cases present
    · exact filed.ids other request present
  · rw [filed.runningOnce, OrderedMap.get_erase]
    split
    · rename_i same
      rw [same, found]
      exact weights.1
    · rfl
  · rw [filed.queuedOnce, OrderedMap.get_erase]
    split
    · rename_i same
      rw [same, found]
      exact weights.2.1
    · rfl
  · rw [OrderedMap.get_erase] at present
    split at present
    · cases present
    · exact filed.unblocked other member request present
  · rw [OrderedMap.get_erase] at present
    split at present
    · cases present
    · exact filed.sessions other request present
  · have total := map_total_erase requests reqId streams
    rw [found] at total
    simp only [Option.elim_some, weights.2.2] at total
    rw [filed.counted]
    omega

end Moves

end KvOffload.EnginePlaces
