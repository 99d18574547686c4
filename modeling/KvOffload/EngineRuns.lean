import KvOffload.EngineReports
import KvOffload.EngineSteps
import KvOffload.EventRuns

/-!
# Runs of the engine scheduler

The engine is called in any order: requests come in, steps are handed out while earlier ones are
outstanding, and the outputs come back in the order of the steps. With every step the run notes how
often its requests had been preempted.
-/

namespace KvOffload.EngineRuns

open KvOffload KvOffload.Base KvOffload.EngineState KvOffload.EngineScheduling
open KvOffload.EngineOutputs KvOffload.EnginePlaces KvOffload.EngineDesk KvOffload.EngineBudgets
open KvOffload.EngineMoves KvOffload.EngineSteps KvOffload.EngineAccounts KvOffload.EngineReturns
open KvOffload.EngineUpdates KvOffload.EngineReports KvOffload.EventRuns KvOffload.FallibleChains
open KvOffload.FiniteTotals

set_option autoImplicit false

/-- A step that was handed out, with the preemptions of its requests until then. -/
structure Handed where
  output : SchedulerOutput
  epochs : ReqId → Nat

namespace Handed

variable (handed : Handed)

def tokens (reqId : ReqId) : Int := (handed.output.numScheduledTokens.get? reqId).getD 0

def flight : List InFlight :=
  handed.output.numScheduledTokens.entries.map fun entry =>
    ⟨entry.1, entry.2, handed.epochs entry.1⟩

end Handed

structure EngineRun (Q : Type) where
  engine : Engine Q
  pending : List Handed := []

inductive EngineEvent where
  | add (request : Request) (update : Option StreamingUpdate)
  | step (throttlePrefills : Bool)
  | output (result : ModelRunnerOutput)
  | finish (reqIds : List ReqId) (finishedStatus : FinishedStatus)
  | reset (resetRunningRequests resetConnector : Bool)
  | draft (reqId : ReqId) (specTokenIds : List Int)
  | pause (pauseState : PauseState)

namespace EngineRun

variable {Q : Type} [LawfulRequestQueue Q] (run : EngineRun Q)

def start (config : EngineConfig) (answers : Nat → Answer) : EngineRun Q where
  engine := Engine.new config answers

omit [LawfulRequestQueue Q] in
def withEngine (engine : Engine Q) : EngineRun Q := { run with engine := engine }

/-- The output that comes back is the one of the oldest outstanding step. -/
def apply : EngineEvent → Except EngineError (EngineRun Q)
  | .add request update => run.withEngine <$> addRequest run.engine request update
  | .step throttlePrefills => do
      let (output, engine) ← schedule run.engine throttlePrefills
      .ok ⟨engine, run.pending ++ [⟨output, fun reqId =>
        (engine.requests.get? reqId).elim 0 Request.numPreemptions⟩]⟩
  | .output result =>
      match run.pending with
      | [] => .ok run
      | handed :: rest => do
          let engine ← updateFromOutput run.engine handed.output result
          .ok ⟨engine, rest⟩
  | .finish reqIds finishedStatus =>
      run.withEngine <$> finishRequests run.engine reqIds finishedStatus
  | .reset resetRunningRequests resetConnector =>
      run.withEngine <$> resetPrefixCache run.engine resetRunningRequests resetConnector
  | .draft reqId specTokenIds =>
      .ok (run.withEngine (updateDraftTokenIds run.engine reqId specTokenIds))
  | .pause pauseState => .ok (run.withEngine (setPauseState run.engine pauseState))

omit [LawfulRequestQueue Q] in
/-- Clients do not use an id twice; a step is asked for when no running request is ahead of its
tokens and each has room for what it samples below the maximal length; a session does not get an
output once it has left the running requests; and a transfer is reported as sent of announced
requests only that are finished. -/
def Permitted : EngineEvent → Prop
  | .add request _ => Addable run.engine request
  | .step _ => ∀ reqId ∈ run.engine.running, ∀ request,
      run.engine.requests.get? reqId = some request → CaughtUp run.engine.config request
  | .output result => ∀ handed, run.pending.head? = some handed →
      Reportable run.engine handed.output result
  | _ => True

def flight (pending : List Handed) : List InFlight := pending.flatMap Handed.flight

/-- The run as the desk sees it. -/
def seen : Desk := view run.engine 0 (flight run.pending)

structure Sound (run : EngineRun Q) : Prop where
  filed : run.seen.Filed
  accounted : Accounted run.seen

end EngineRun

open EngineRun

/-- Where an event may raise: a step by an answer or on a waiting request that has no token left to
compute, and a reset where the KV cache manager refuses it. -/
def Outside : EngineEvent → EngineError → Prop
  | .step _, problem => Answered problem
  | .reset _ _, problem => problem = .resetFailed
  | _, _ => False

section Events

variable {Q : Type} [LawfulRequestQueue Q] {run : EngineRun Q}

theorem step_leads (sound : EngineRun.Sound run) {throttlePrefills : Bool}
    (permitted : run.Permitted (.step throttlePrefills)) :
    Leads Move (Outside (.step throttlePrefills)) run.seen EngineRun.seen (fun _ => True)
      (run.apply (.step throttlePrefills)) := by
  have leads := schedule_leads sound.filed permitted throttlePrefills
  unfold EngineRun.apply
  dsimp only
  cases returned : schedule run.engine throttlePrefills with
  | error problem => exact leads.excused_of_error returned
  | ok result =>
      obtain ⟨output, engine⟩ := result
      refine .of_ok rfl ?_ trivial
      show Moves _ (view engine 0 (EngineRun.flight (run.pending ++ [_])))
      rw [EngineRun.flight, List.flatMap_append, List.flatMap_singleton]
      exact (leads.of_eq_ok returned).1

theorem output_leads (sound : EngineRun.Sound run) {result : ModelRunnerOutput}
    (permitted : run.Permitted (.output result)) :
    Leads Move (Outside (.output result)) run.seen EngineRun.seen (fun _ => True)
      (run.apply (.output result)) := by
  unfold EngineRun.apply
  dsimp only
  cases pending : run.pending with
  | nil => exact .of_ok rfl .refl trivial
  | cons handed rest =>
      have reportable := permitted handed (by rw [pending]; rfl)
      have filed := sound.filed
      have accounted := sound.accounted
      unfold EngineRun.seen at filed accounted ⊢
      rw [pending, EngineRun.flight, List.flatMap_cons] at filed accounted ⊢
      have same : handed.flight.map (fun flown => (flown.reqId, flown.tokens)) =
          handed.output.numScheduledTokens.entries := by
        unfold Handed.flight
        rw [List.map_map]
        exact List.map_id _
      obtain ⟨engine, done, moves⟩ := update_from_output_moves handed.flight filed accounted same
        reportable
      dsimp only
      rw [done]
      exact .of_ok rfl moves trivial

/-- Every event that is permitted is a chain of moves, or fails where it may. -/
theorem event_leads (sound : EngineRun.Sound run) {event : EngineEvent}
    (permitted : run.Permitted event) :
    Leads Move (Outside event) run.seen EngineRun.seen (fun _ => True) (run.apply event) := by
  cases event with
  | add request update =>
      obtain ⟨engine, done, moves⟩ := add_request_moves sound.filed permitted update
      unfold EngineRun.apply
      dsimp only
      rw [done]
      exact .of_ok rfl moves trivial
  | step throttlePrefills => exact step_leads sound permitted
  | output result => exact output_leads sound permitted
  | finish reqIds finishedStatus =>
      obtain ⟨engine, done, moves⟩ := finish_requests_moves sound.filed reqIds finishedStatus
      unfold EngineRun.apply
      dsimp only
      rw [done]
      exact .of_ok rfl moves trivial
  | reset resetRunningRequests resetConnector =>
      have leads := reset_prefix_cache_leads sound.filed resetRunningRequests resetConnector
      unfold EngineRun.apply
      dsimp only
      cases returned : resetPrefixCache run.engine resetRunningRequests resetConnector with
      | error problem => exact leads.excused_of_error returned
      | ok engine => exact .of_ok rfl (leads.of_eq_ok returned).1 trivial
  | draft reqId specTokenIds =>
      exact .of_ok rfl (draft_moves sound.filed reqId specTokenIds) trivial
  | pause pauseState => exact .of_ok rfl .refl trivial

theorem sound_moves {before after : EngineRun Q} (sound : EngineRun.Sound before)
    (moves : Moves before.seen after.seen) : EngineRun.Sound after :=
  ⟨filed_moves sound.filed moves, accounted_moves sound.accounted moves⟩

theorem start_sound (config : EngineConfig) (answers : Nat → Answer) :
    EngineRun.Sound (EngineRun.start config answers : EngineRun Q) := by
  constructor
  · show Filed _ .empty (([] : List ReqId) : Multiset ReqId) (queued RequestQueue.empty)
      (queued RequestQueue.empty + 0) 0
    rw [queued_empty]
    exact {
      ids := fun reqId request found => by cases found
      runningOnce := fun reqId => rfl
      queuedOnce := fun reqId => rfl
      unblocked := fun reqId member => by cases member
      sessions := fun reqId request found => by cases found
      counted := rfl
      within := by simp }
  · exact {
      positive := fun entry member => by cases member
      ordered := List.Pairwise.nil
      epochs := fun entry member => by cases member
      inFlight := fun reqId request found => by cases found
      stale := fun reqId request found => by cases found
      opened := fun reqId request found => by cases found
      known := fun entry member => by cases member }

/-- A run of the scheduler is a chain of moves. -/
theorem reached_moves {config : EngineConfig} {answers : Nat → Answer}
    (reaches : Reaches EngineRun.apply EngineRun.Permitted (EngineRun.start config answers) run) :
    Moves (EngineRun.start config answers : EngineRun Q).seen run.seen := by
  let start : EngineRun Q := EngineRun.start config answers
  have kept : ∀ (before : EngineRun Q) event after, Moves start.seen before.seen →
      before.Permitted event → before.apply event = .ok after → Moves start.seen after.seen := by
    intro before event after moves permitted applied
    have sound := sound_moves (start_sound config answers) moves
    exact moves.trans ((event_leads sound permitted).of_eq_ok applied).1
  exact @reaches_invariant (EngineRun Q) _ _ EngineRun.apply EngineRun.Permitted
    (fun state => Moves start.seen state.seen) start run kept .refl reaches

theorem reached_sound {config : EngineConfig} {answers : Nat → Answer}
    (reaches : Reaches EngineRun.apply EngineRun.Permitted (EngineRun.start config answers) run) :
    EngineRun.Sound run :=
  sound_moves (start_sound config answers) (reached_moves reaches)

theorem reached_config {config : EngineConfig} {answers : Nat → Answer}
    (reaches : Reaches EngineRun.apply EngineRun.Permitted (EngineRun.start config answers) run) :
    run.engine.config = config :=
  config_moves (reached_moves reaches)

end Events

section Decisions

variable {Q : Type}

scoped instance decidableForallSome {α : Type} (found : Option α) (p : α → Prop)
    [DecidablePred p] : Decidable (∀ value, found = some value → p value) :=
  inferInstanceAs (Decidable (∀ value ∈ found, p value))

/-- Whether the connector was told of a request. -/
def knows (calls : List EngineCall) (reqId : ReqId) : Bool :=
  calls.any fun
    | .onNewRequest other => other = reqId
    | _ => false

theorem knows_iff (calls : List EngineCall) (reqId : ReqId) :
    knows calls reqId = true ↔ EngineCall.onNewRequest reqId ∈ calls := by
  unfold knows
  rw [List.any_eq_true]
  constructor
  · rintro ⟨call, member, same⟩
    cases call <;> simp_all
  · exact fun member => ⟨_, member, decide_eq_true rfl⟩

scoped instance decidableKnown (calls : List EngineCall) (reqId : ReqId) :
    Decidable (EngineCall.onNewRequest reqId ∈ calls) :=
  decidable_of_iff _ (knows_iff calls reqId)

scoped instance decidableCaughtUp (config : EngineConfig) (request : Request) :
    Decidable (CaughtUp config request) :=
  decidable_of_iff (_ ∧ _) ⟨fun both => ⟨both.1, both.2⟩, fun both => ⟨both.behind, both.room⟩⟩

scoped instance decidableNewRequest (request : Request) : Decidable (NewRequest request) :=
  decidable_of_iff (_ ∧ _)
    ⟨fun both => ⟨both.1, both.2⟩, fun both => ⟨both.status, both.unscheduled⟩⟩

scoped instance decidableAddable (engine : Engine Q) (request : Request) :
    Decidable (Addable engine request) :=
  decidable_of_iff (_ ∧ _) ⟨fun both => ⟨both.1, both.2⟩, fun both => ⟨both.fresh, both.session⟩⟩

scoped instance decidableReportable (engine : Engine Q) (output : SchedulerOutput)
    (result : ModelRunnerOutput) : Decidable (Reportable engine output result) :=
  decidable_of_iff (_ ∧ _) ⟨fun both => ⟨both.1, both.2⟩, fun both => ⟨both.ordinary, both.sent⟩⟩

scoped instance decidablePermitted (run : EngineRun Q) : ∀ event, Decidable (run.Permitted event)
  | .add request _ => decidableAddable run.engine request
  | .step _ => inferInstanceAs (Decidable (∀ reqId ∈ run.engine.running, ∀ request,
      run.engine.requests.get? reqId = some request → CaughtUp run.engine.config request))
  | .output result => inferInstanceAs (Decidable (∀ handed, run.pending.head? = some handed →
      Reportable run.engine handed.output result))
  | .finish _ _ | .reset _ _ | .draft _ _ | .pause _ => inferInstanceAs (Decidable True)

end Decisions

section Example

/-- Requests in the order in which they came. -/
structure FcfsRequestQueue where
  reqIds : List ReqId

instance fcfsRequestQueue : LawfulRequestQueue FcfsRequestQueue where
  empty := ⟨[]⟩
  items queue := queue.reqIds
  peek queue := queue.reqIds.head?
  pop queue := ⟨queue.reqIds.tail⟩
  add queue request := ⟨queue.reqIds ++ [request.requestId]⟩
  prepend queue request := ⟨request.requestId :: queue.reqIds⟩
  prependAll queue other := ⟨other.reqIds.reverse ++ queue.reqIds⟩
  remove queue removed := ⟨queue.reqIds.filter fun reqId => reqId ∉ removed⟩
  items_empty := rfl
  items_peek queue reqId first := by
    rw [List.eq_cons_of_mem_head? first]
    exact .refl _
  items_of_peek_none queue := List.head?_eq_none_iff.mp
  items_add queue request := List.perm_append_singleton _ _
  items_prepend _ _ := .refl _
  items_prepend_all queue other := (List.reverse_perm _).append_right _
  items_remove _ _ := .refl _

def smallConfig : EngineConfig where
  policy := .fcfs
  precedes _ _ := false
  checkStop _ _ := none
  maxNumRunningReqs := 2
  maxNumScheduledTokens := 4
  maxNumBatchedTokens := 4
  maxModelLen := 16
  blockSize := 4
  blockSize_pos := by decide
  hashBlockSize := 4

/-- Every reset succeeds, and nothing is cached. -/
def smallStart : EngineRun FcfsRequestQueue :=
  EngineRun.start smallConfig fun _ => { succeeds := true }

def threeTokens (reqId : ReqId) : EngineEvent :=
  .add { requestId := reqId, allTokenIds := [1, 2, 3], numPromptTokens := 3, maxTokens := 4 } none

/-- A session that stops with every token it samples. -/
def session : Request :=
  { requestId := 1, allTokenIds := [1, 2, 3], numPromptTokens := 3, maxTokens := 4,
    resumable := true }

def sessionStart : EngineRun FcfsRequestQueue :=
  EngineRun.start { smallConfig with checkStop := fun _ _ => some .stopped } fun _ => {}

end Example

section Limits

variable {Q : Type} [LawfulRequestQueue Q] {run : EngineRun Q}

theorem sound_places (sound : EngineRun.Sound run) (reqId : ReqId) :
    run.engine.running.count reqId = (run.engine.requests.get? reqId).elim 0 runs ∧
    (RequestQueue.items run.engine.waiting).count reqId +
      (RequestQueue.items run.engine.skippedWaiting).count reqId =
      (run.engine.requests.get? reqId).elim 0 waits := by
  have ran : (run.engine.running : Multiset ReqId).count reqId =
      (run.engine.requests.get? reqId).elim 0 runs := sound.filed.runningOnce reqId
  have queuedOnce : (queued run.engine.waiting).count reqId +
      (queued run.engine.skippedWaiting + 0).count reqId =
      (run.engine.requests.get? reqId).elim 0 waits := sound.filed.queuedOnce reqId
  rw [Multiset.coe_count] at ran
  rw [add_zero, queued, queued, Multiset.coe_count, Multiset.coe_count] at queuedOnce
  exact ⟨ran, queuedOnce⟩

/-- An unfinished request is at one place: running, or in one of the queues, where only the skipped
ones may wait for something else than a turn. Of what is permitted only a step and a reset fail, by
an answer, or a step on a waiting request without tokens. -/
theorem requests_in_one_place {config : EngineConfig} {answers : Nat → Answer}
    (reaches : Reaches EngineRun.apply EngineRun.Permitted (EngineRun.start config answers) run) :
    (∀ reqId request, run.engine.requests.get? reqId = some request →
      run.engine.running.count reqId = (if request.status = .running then 1 else 0) ∧
      (RequestQueue.items run.engine.waiting).count reqId +
        (RequestQueue.items run.engine.skippedWaiting).count reqId =
        (if request.status ≠ .running ∧ request.isFinished = false then 1 else 0) ∧
      (reqId ∈ RequestQueue.items run.engine.waiting → request.status.isBlocked = false)) ∧
    (∀ reqId, run.engine.requests.get? reqId = none → reqId ∉ run.engine.running ∧
      reqId ∉ RequestQueue.items run.engine.waiting ∧
      reqId ∉ RequestQueue.items run.engine.skippedWaiting) ∧
    run.engine.numWaitingForStreamingInput = mapTotal run.engine.requests streams ∧
    run.engine.running.length + run.engine.numWaitingForStreamingInput ≤
      config.maxNumRunningReqs ∧
    ∀ event, run.Permitted event → ∀ problem, run.apply event = .error problem →
      (∃ throttlePrefills, event = .step throttlePrefills ∧
        (problem = .answered ∨ problem = .noNewTokens)) ∨
      (∃ running connector, event = .reset running connector ∧ problem = .resetFailed) := by
  have sound := reached_sound reaches
  have filed := sound.filed
  refine ⟨?_, ?_, filed.counted, ?_, ?_⟩
  · intro reqId request found
    have places := sound_places sound reqId
    rw [found] at places
    refine ⟨places.1, places.2, fun member => ?_⟩
    exact filed.unblocked reqId (Multiset.mem_coe.mpr member) request found
  · intro reqId missing
    have places := sound_places sound reqId
    rw [missing] at places
    obtain ⟨ran, queuedOnce⟩ := places
    obtain ⟨waits, skipped⟩ := Nat.add_eq_zero_iff.mp queuedOnce
    exact ⟨List.count_eq_zero.mp ran, List.count_eq_zero.mp waits, List.count_eq_zero.mp skipped⟩
  · rw [← reached_config reaches]
    exact filed.within
  · intro event permitted problem raised
    have outside := (event_leads sound permitted).excused_of_error raised
    cases event with
    | step throttlePrefills => exact .inl ⟨_, rfl, outside⟩
    | reset running connector => exact .inr ⟨_, _, rfl, outside⟩
    | add | output | finish | draft | pause => exact outside.elim

theorem third_request_waits : ∃ run : EngineRun FcfsRequestQueue,
    run.engine.running = [1, 2] ∧ run.engine.waiting.reqIds = [3] ∧
    ∀ event, run.Permitted event → ∀ problem, run.apply event = .error problem →
      (∃ throttlePrefills, event = .step throttlePrefills ∧
        (problem = .answered ∨ problem = .noNewTokens)) ∨
      (∃ running connector, event = .reset running connector ∧ problem = .resetFailed) := by
  have ran : (replay EngineRun.apply EngineRun.Permitted smallStart
      [threeTokens 1, threeTokens 2, threeTokens 3, .step false]).map
      (fun run => (run.engine.running, run.engine.waiting.reqIds)) = some ([1, 2], [3]) := by
    decide +kernel
  obtain ⟨run, reaches, seen⟩ := exists_of_replay ran
  simp only [Prod.mk.injEq] at seen
  exact ⟨run, seen.1, seen.2, (requests_in_one_place reaches).2.2.2.2⟩

/-- An update without tokens leaves a session nothing to compute. -/
example : (replay EngineRun.apply EngineRun.Permitted sessionStart
    [.add session none, .step false, .output { sampledTokenIds := fun _ => [9] },
      .add session (some ⟨[], 0⟩)]).map (fun run =>
        match run.apply (.step false) with
        | .error problem => some problem
        | .ok _ => none) = some (some .noNewTokens) := by
  decide +kernel

/-- A step that is handed out schedules running requests within the budgets of the configuration,
each of them for some tokens. -/
theorem steps_within_budget {config : EngineConfig} {answers : Nat → Answer}
    (reaches : Reaches EngineRun.apply EngineRun.Permitted (EngineRun.start config answers) run)
    {throttlePrefills : Bool} (permitted : run.Permitted (.step throttlePrefills))
    {output : SchedulerOutput} {after : Engine Q}
    (scheduled : schedule run.engine throttlePrefills = .ok (output, after)) :
    output.numScheduledTokens.keys.Perm (output.scheduledNewReqs ++
      output.scheduledResumedReqs ++ output.scheduledRunningReqs) ∧
    (∀ reqId tokens, output.numScheduledTokens.get? reqId = some tokens →
      0 < tokens ∧ reqId ∈ after.running) ∧
    output.totalNumScheduledTokens ≤
      (if run.engine.pauseState = .pausedAll then 0 else config.maxNumScheduledTokens) ∧
    mapTotal output.numScheduledTokens (· + (config.draftSlots : Int)) ≤
      config.maxNumBatchedTokens := by
  have sound := reached_sound reaches
  have issued := ((schedule_leads sound.filed permitted throttlePrefills).of_eq_ok scheduled).2
  rw [reached_config reaches] at issued
  refine ⟨issued.scheduled, fun reqId tokens given => ?_, issued.tokens, issued.inputs⟩
  have present : reqId ∈ output.numScheduledTokens.keys :=
    (OrderedMap.mem_keys_iff _ _).mpr (by rw [given]; rfl)
  exact ⟨issued.positive reqId tokens given, issued.running reqId present⟩

theorem second_prompt_cut : ∃ (run : EngineRun FcfsRequestQueue) (output : SchedulerOutput)
    (after : Engine FcfsRequestQueue), schedule run.engine false = .ok (output, after) ∧
    output.numScheduledTokens.entries = [(1, 3), (2, 1)] ∧
    output.totalNumScheduledTokens ≤
      (if run.engine.pauseState = .pausedAll then 0 else smallConfig.maxNumScheduledTokens) := by
  have ran : (replay EngineRun.apply EngineRun.Permitted smallStart
      [threeTokens 1, threeTokens 2]).map
      (fun run => (decide (run.Permitted (.step false)),
        (schedule run.engine false).toOption.map fun result =>
          result.1.numScheduledTokens.entries)) = some (true, some [(1, 3), (2, 1)]) := by
    decide +kernel
  obtain ⟨run, reaches, seen⟩ := exists_of_replay ran
  rw [Prod.mk.injEq] at seen
  obtain ⟨permitted, made⟩ := seen
  cases scheduled : schedule run.engine false with
  | error problem =>
      rw [scheduled] at made
      cases made
  | ok result =>
      obtain ⟨output, after⟩ := result
      rw [scheduled] at made
      have limits := steps_within_budget reaches (of_decide_eq_true permitted) scheduled
      exact ⟨run, output, after, scheduled, Option.some_injective _ made, limits.2.2.1⟩

/-- The engine is asked to go on while a tracked request is unfinished and does not wait for the
next input of its session. -/
theorem unfinished_requests_counted {config : EngineConfig} {answers : Nat → Answer}
    (reaches : Reaches EngineRun.apply EngineRun.Permitted (EngineRun.start config answers) run)
    (unpaused : run.engine.pauseState = .unpaused) :
    getNumUnfinishedRequests run.engine = mapTotal run.engine.requests active := by
  have filed := (reached_sound reaches).filed
  have ran : run.seen.running.card = mapTotal run.engine.requests runs :=
    card_eq_map_total filed.runningOnce
  have queuedAll : (run.seen.waiting + run.seen.skipped).card = mapTotal run.engine.requests waits :=
    card_eq_map_total fun reqId => by
      rw [Multiset.count_add]
      exact filed.queuedOnce reqId
  have lengths : run.seen.running.card = run.engine.running.length ∧
      (run.seen.waiting + run.seen.skipped).card =
        (RequestQueue.items run.engine.waiting).length +
          (RequestQueue.items run.engine.skippedWaiting).length := by
    refine ⟨rfl, ?_⟩
    rw [Multiset.card_add]
    show _ + (queued run.engine.skippedWaiting + 0).card = _
    rw [add_zero]
    rfl
  have streaming : run.engine.numWaitingForStreamingInput = mapTotal run.engine.requests streams :=
    filed.counted
  unfold getNumUnfinishedRequests
  rw [unpaused]
  dsimp only
  rw [← Nat.cast_add, ← lengths.2, ← lengths.1, queuedAll, ran, streaming]
  unfold mapTotal total
  rw [Nat.cast_sum, Nat.cast_sum, ← Finset.sum_sub_distrib, ← Finset.sum_add_distrib]
  apply Finset.sum_congr rfl
  intro reqId _
  cases found : run.engine.requests.get? reqId with
  | none => rfl
  | some request => exact active_eq request

theorem three_unfinished : ∃ run : EngineRun FcfsRequestQueue,
    getNumUnfinishedRequests run.engine = 3 ∧ mapTotal run.engine.requests active = 3 := by
  have ran : (replay EngineRun.apply EngineRun.Permitted smallStart
      [threeTokens 1, threeTokens 2, threeTokens 3, .step false]).map
      (fun run => (decide (run.engine.pauseState = .unpaused),
        getNumUnfinishedRequests run.engine)) = some (true, 3) := by
    decide +kernel
  obtain ⟨run, reaches, seen⟩ := exists_of_replay ran
  rw [Prod.mk.injEq] at seen
  have counted := unfinished_requests_counted reaches (of_decide_eq_true seen.1)
  exact ⟨run, seen.2, counted.symm.trans seen.2⟩

end Limits

section Tokens

variable {flight : List InFlight} {reqId : ReqId} {epoch : Nat}

/-- The steps of a request in one output were preempted equally often. -/
theorem owed_of_same_epoch {given : Nat}
    (same : ∀ entry ∈ flight, entry.reqId = reqId → entry.epoch = given) :
    owed flight reqId epoch = if given < epoch then outstanding flight reqId else 0 := by
  split
  · rename_i older
    exact owed_eq_outstanding fun entry member own => same entry member own ▸ older
  · rename_i recent
    by_contra something
    obtain ⟨entry, member, own, older⟩ := exists_older_of_owed something
    exact recent (same entry member own ▸ older)

theorem outstanding_entries (epochs : ReqId → Nat) {entries : List (ReqId × Int)}
    (distinct : (entries.map Prod.fst).Nodup) :
    outstanding (entries.map fun entry => ⟨entry.1, entry.2, epochs entry.1⟩) reqId =
      (assocGet entries reqId).getD 0 := by
  induction entries with
  | nil => rfl
  | cons entry rest ih =>
      obtain ⟨key, tokens⟩ := entry
      rw [List.map_cons, List.nodup_cons] at distinct
      rw [List.map_cons, outstanding_cons, ih distinct.2, assocGet]
      by_cases own : key = reqId
      · have absent := (assoc_get_eq_none_iff rest reqId).mpr (own ▸ distinct.1)
        rw [absent]
        simp [own]
      · simp [own]

variable (handed : Handed)

theorem handed_epoch : ∀ entry ∈ handed.flight, entry.epoch = handed.epochs entry.reqId := by
  intro entry member
  obtain ⟨_, _, rfl⟩ := List.mem_map.mp member
  rfl

theorem handed_outstanding : outstanding handed.flight reqId = handed.tokens reqId :=
  outstanding_entries handed.epochs handed.output.numScheduledTokens.nodup

theorem handed_owed : owed handed.flight reqId epoch =
    if handed.epochs reqId < epoch then handed.tokens reqId else 0 := by
  rw [← handed_outstanding handed]
  exact owed_of_same_epoch fun entry member own => own ▸ handed_epoch handed entry member

theorem pending_outstanding (pending : List Handed) :
    outstanding (EngineRun.flight pending) reqId =
      (pending.map fun handed => handed.tokens reqId).sum := by
  induction pending with
  | nil => rfl
  | cons handed rest ih =>
      rw [EngineRun.flight, List.flatMap_cons, outstanding_append, handed_outstanding,
        List.map_cons, List.sum_cons, ← ih]
      rfl

theorem pending_owed (pending : List Handed) :
    owed (EngineRun.flight pending) reqId epoch =
      ((pending.filter fun handed => handed.epochs reqId < epoch).map
        fun handed => handed.tokens reqId).sum := by
  induction pending with
  | nil => rfl
  | cons handed rest ih =>
      rw [EngineRun.flight, List.flatMap_cons, owed_append, handed_owed, List.filter_cons]
      rw [EngineRun.flight] at ih
      rw [ih]
      by_cases older : handed.epochs reqId < epoch
      · rw [if_pos older, if_pos (decide_eq_true older), List.map_cons, List.sum_cons]
      · rw [if_neg older, if_neg fun both => older (of_decide_eq_true both), zero_add]

end Tokens

section Accounts

variable {Q : Type} [LawfulRequestQueue Q] {run : EngineRun Q}

theorem next_output_stale_iff (sound : EngineRun.Sound run) {handed : Handed} {rest : List Handed}
    (pending : run.pending = handed :: rest) {reqId : ReqId} {request : Request}
    (found : run.engine.requests.get? reqId = some request)
    (scheduled : reqId ∈ handed.output.numScheduledTokens.keys) :
    0 < request.numStaleOutputTokens ↔ handed.epochs reqId < request.numPreemptions := by
  have accounted := sound.accounted
  unfold EngineRun.seen at accounted
  rw [pending, EngineRun.flight, List.flatMap_cons] at accounted
  have stale : request.numStaleOutputTokens =
      owed (handed.flight ++ rest.flatMap Handed.flight) reqId request.numPreemptions :=
    accounted.stale reqId request found
  have ordered := (List.pairwise_append.mp accounted.ordered).2.2
  obtain ⟨entry, member, rfl⟩ := List.mem_map.mp scheduled
  have own : (⟨entry.1, entry.2, handed.epochs entry.1⟩ : InFlight) ∈ handed.flight :=
    List.mem_map_of_mem member
  rw [stale]
  constructor
  · intro some
    obtain ⟨older, listed, same, earlier⟩ := exists_older_of_owed some.ne'
    rcases List.mem_append.mp listed with mine | later
    · rw [handed_epoch handed older mine, same] at earlier
      exact earlier
    · exact (ordered _ own older later same.symm).trans_lt earlier
  · intro older
    exact owed_pos_of_older accounted.positive (List.mem_append_left _ own) rfl older

/-- Both counters of a request are sums over the steps that are outstanding, the stale one over
those that were handed out before its last preemption; and whether the output that comes next is
stale for a request is decided by its own step. -/
theorem tokens_accounted {config : EngineConfig} {answers : Nat → Answer}
    (reaches : Reaches EngineRun.apply EngineRun.Permitted (EngineRun.start config answers) run)
    {reqId : ReqId} {request : Request}
    (found : run.engine.requests.get? reqId = some request) :
    request.numInFlightTokens = (run.pending.map fun handed => handed.tokens reqId).sum ∧
    request.numStaleOutputTokens =
      ((run.pending.filter fun handed => handed.epochs reqId < request.numPreemptions).map
        fun handed => handed.tokens reqId).sum ∧
    ∀ handed, run.pending.head? = some handed → reqId ∈ handed.output.numScheduledTokens.keys →
      (0 < request.numStaleOutputTokens ↔ handed.epochs reqId < request.numPreemptions) := by
  have accounted := (reached_sound reaches).accounted
  refine ⟨?_, ?_, fun handed oldest scheduled => ?_⟩
  · rw [← pending_outstanding]
    exact accounted.inFlight reqId request found
  · rw [← pending_owed]
    exact accounted.stale reqId request found
  · obtain ⟨rest, pending⟩ := List.head?_eq_some_iff.mp oldest
    exact next_output_stale_iff (reached_sound reaches) pending found scheduled

/-- The first step was handed out before the request was preempted, the second one after. -/
theorem first_step_stale : ∃ (run : EngineRun FcfsRequestQueue) (request : Request),
    run.engine.requests.get? 1 = some request ∧
    request.numInFlightTokens = 6 ∧ request.numStaleOutputTokens = 3 ∧
    request.numInFlightTokens = (run.pending.map fun handed => handed.tokens 1).sum := by
  have ran : (replay EngineRun.apply EngineRun.Permitted smallStart
      [threeTokens 1, .step false, .reset true false, .step false]).map
      (fun run => (run.engine.requests.get? 1).map fun request =>
        (request.numInFlightTokens, request.numStaleOutputTokens)) = some (some (6, 3)) := by
    decide +kernel
  obtain ⟨run, reaches, seen⟩ := exists_of_replay ran
  obtain ⟨request, found, counters⟩ := Option.map_eq_some_iff.mp seen
  rw [Prod.mk.injEq] at counters
  exact ⟨run, request, found, counters.1, counters.2, (tokens_accounted reaches found).1⟩

end Accounts

end KvOffload.EngineRuns
