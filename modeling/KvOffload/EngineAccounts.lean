import KvOffload.EngineDesk

/-!
# Outstanding tokens

The tokens of a request that are in flight, and the share of them that is stale: what the steps
hand out before the last preemption of the request. A move keeps both counters true, and an output
that arrives is taken for stale exactly where its step is older than the preemption.
-/

namespace KvOffload.EngineAccounts

open KvOffload KvOffload.Base KvOffload.EngineState KvOffload.EngineScheduling
open KvOffload.EnginePlaces KvOffload.EngineDesk

set_option autoImplicit false

/-- The tokens of a request in flight that were handed out before a number of preemptions. -/
def owed (flight : List InFlight) (reqId : ReqId) (epoch : Nat) : Int :=
  ((flight.filter fun entry => entry.reqId = reqId ∧ entry.epoch < epoch).map
    InFlight.tokens).sum

/-- The tokens of a request in flight. -/
def outstanding (flight : List InFlight) (reqId : ReqId) : Int :=
  ((flight.filter fun entry => entry.reqId = reqId).map InFlight.tokens).sum

structure Accounted (desk : Desk) : Prop where
  positive : ∀ entry ∈ desk.flight, 0 < entry.tokens
  ordered : desk.flight.Pairwise fun early late =>
    early.reqId = late.reqId → early.epoch ≤ late.epoch
  epochs : ∀ entry ∈ desk.flight, ∀ request, desk.requests.get? entry.reqId = some request →
    entry.epoch ≤ request.numPreemptions
  inFlight : ∀ reqId request, desk.requests.get? reqId = some request →
    request.numInFlightTokens = outstanding desk.flight reqId
  stale : ∀ reqId request, desk.requests.get? reqId = some request →
    request.numStaleOutputTokens = owed desk.flight reqId request.numPreemptions
  opened : ∀ reqId request, desk.requests.get? reqId = some request →
    EngineCall.onNewRequest reqId ∈ desk.calls
  known : ∀ entry ∈ desk.flight, EngineCall.onNewRequest entry.reqId ∈ desk.calls

section Sums

variable {flight : List InFlight} {reqId : ReqId} {epoch : Nat}

theorem owed_nonneg (positive : ∀ entry ∈ flight, 0 < entry.tokens) :
    0 ≤ owed flight reqId epoch := by
  apply List.sum_nonneg
  intro share member
  obtain ⟨entry, listed, rfl⟩ := List.mem_map.mp member
  exact (positive entry (List.mem_of_mem_filter listed)).le

theorem owed_cons (entry : InFlight) : owed (entry :: flight) reqId epoch =
    (if entry.reqId = reqId ∧ entry.epoch < epoch then entry.tokens else 0) +
      owed flight reqId epoch := by
  unfold owed
  rw [List.filter_cons]
  split
  · rename_i listed
    rw [if_pos (of_decide_eq_true listed), List.map_cons, List.sum_cons]
  · rename_i other
    rw [if_neg fun both => other (decide_eq_true both), zero_add]

theorem outstanding_cons (entry : InFlight) : outstanding (entry :: flight) reqId =
    (if entry.reqId = reqId then entry.tokens else 0) + outstanding flight reqId := by
  unfold outstanding
  rw [List.filter_cons]
  split
  · rename_i listed
    rw [if_pos (of_decide_eq_true listed), List.map_cons, List.sum_cons]
  · rename_i other
    rw [if_neg fun same => other (decide_eq_true same), zero_add]

theorem owed_append (left right : List InFlight) :
    owed (left ++ right) reqId epoch = owed left reqId epoch + owed right reqId epoch := by
  unfold owed
  rw [List.filter_append, List.map_append, List.sum_append]

theorem outstanding_append (left right : List InFlight) :
    outstanding (left ++ right) reqId = outstanding left reqId + outstanding right reqId := by
  unfold outstanding
  rw [List.filter_append, List.map_append, List.sum_append]

/-- Where every step is older, all that is in flight is owed. -/
theorem owed_eq_outstanding (older : ∀ entry ∈ flight, entry.reqId = reqId → entry.epoch < epoch) :
    owed flight reqId epoch = outstanding flight reqId := by
  unfold owed outstanding
  congr 2
  apply List.filter_congr
  intro entry member
  rw [Bool.eq_iff_iff, decide_eq_true_iff, decide_eq_true_iff]
  exact ⟨And.left, fun own => ⟨own, older entry member own⟩⟩

theorem owed_pos_of_older (positive : ∀ entry ∈ flight, 0 < entry.tokens) {entry : InFlight}
    (member : entry ∈ flight) (own : entry.reqId = reqId) (older : entry.epoch < epoch) :
    0 < owed flight reqId epoch := by
  obtain ⟨before, after, rfl⟩ := List.append_of_mem member
  rw [owed_append, owed_cons, if_pos ⟨own, older⟩]
  have first := @owed_nonneg before reqId epoch fun other listed =>
    positive other (List.mem_append_left _ listed)
  have last := @owed_nonneg after reqId epoch fun other listed =>
    positive other (List.mem_append_right _ (List.mem_cons_of_mem _ listed))
  have here := positive entry member
  omega

theorem exists_older_of_owed (some : owed flight reqId epoch ≠ 0) :
    ∃ entry ∈ flight, entry.reqId = reqId ∧ entry.epoch < epoch := by
  by_contra nothing
  apply some
  unfold owed
  rw [List.filter_eq_nil_iff.mpr ?_]
  · rfl
  · intro entry member listed
    exact nothing ⟨entry, member, of_decide_eq_true listed⟩

end Sums

section Moves

variable {before after : Desk}

/-- An arriving output counts as stale exactly where its step is older than the preemption. -/
theorem Accounted.stale_iff (accounted : Accounted before) {entry : InFlight} {rest : List InFlight}
    (oldest : before.flight = entry :: rest) {request : Request}
    (found : before.requests.get? entry.reqId = some request) :
    0 < request.numStaleOutputTokens ↔ entry.epoch < request.numPreemptions := by
  have stale := accounted.stale entry.reqId request found
  constructor
  · intro some
    obtain ⟨older, member, own, earlier⟩ := exists_older_of_owed (stale ▸ some.ne')
    rw [oldest] at member
    have ordered := accounted.ordered
    rw [oldest, List.pairwise_cons] at ordered
    rcases List.mem_cons.mp member with rfl | later
    · exact earlier
    · exact (ordered.1 older later own.symm).trans_lt earlier
  · intro older
    rw [stale]
    refine owed_pos_of_older accounted.positive ?_ rfl older
    rw [oldest]
    exact List.mem_cons_self

/-- What is left of the counters once the oldest output has arrived. -/
theorem Accounted.arrived (accounted : Accounted before) {entry : InFlight} {rest : List InFlight}
    (oldest : before.flight = entry :: rest) {request : Request}
    (found : before.requests.get? entry.reqId = some request) :
    request.numInFlightTokens - entry.tokens = outstanding rest entry.reqId ∧
      (if 0 < request.numStaleOutputTokens then request.numStaleOutputTokens - entry.tokens
        else request.numStaleOutputTokens) = owed rest entry.reqId request.numPreemptions := by
  have isStale := accounted.stale_iff oldest found
  have all := accounted.inFlight entry.reqId request found
  have stale := accounted.stale entry.reqId request found
  rw [oldest, outstanding_cons, if_pos rfl] at all
  rw [oldest, owed_cons] at stale
  refine ⟨by omega, ?_⟩
  split
  · rename_i some
    rw [if_pos ⟨rfl, isStale.mp some⟩] at stale
    omega
  · rename_i none
    rw [if_neg fun both => none (isStale.mpr both.2)] at stale
    omega

theorem Accounted.of_same (accounted : Accounted before) (flight : after.flight = before.flight)
    (calls : ∀ call ∈ before.calls, call ∈ after.calls)
    (each : ∀ reqId request, after.requests.get? reqId = some request →
      ∃ old, before.requests.get? reqId = some old ∧ SameAccount old request) :
    Accounted after where
  positive := flight ▸ accounted.positive
  ordered := flight ▸ accounted.ordered
  epochs entry member request found := by
    obtain ⟨old, foundBefore, account⟩ := each _ request found
    rw [account.epoch]
    exact accounted.epochs entry (flight ▸ member) old foundBefore
  inFlight reqId request found := by
    obtain ⟨old, foundBefore, account⟩ := each reqId request found
    rw [account.inFlight, flight]
    exact accounted.inFlight reqId old foundBefore
  stale reqId request found := by
    obtain ⟨old, foundBefore, account⟩ := each reqId request found
    rw [account.stale, account.epoch, flight]
    exact accounted.stale reqId old foundBefore
  opened reqId request found := by
    obtain ⟨old, foundBefore, _⟩ := each reqId request found
    exact calls _ (accounted.opened reqId old foundBefore)
  known entry member := calls _ (accounted.known entry (flight ▸ member))

theorem SameAccount.refl (request : Request) : SameAccount request request :=
  ⟨rfl, rfl, rfl, rfl⟩

/-- One request changes and keeps its account. -/
theorem each_of_set {old request : Request}
    (found : before.requests.get? request.requestId = some old) (account : SameAccount old request)
    (reqId : ReqId) (other : Request)
    (foundAfter : (before.requests.set request.requestId request).get? reqId = some other) :
    ∃ old, before.requests.get? reqId = some old ∧ SameAccount old other := by
  rw [OrderedMap.get_set] at foundAfter
  split at foundAfter
  · rename_i same
    cases foundAfter
    exact ⟨old, same ▸ found, account⟩
  · exact ⟨other, foundAfter, SameAccount.refl other⟩

/-- The requests that are there were there before. -/
theorem each_refl (reqId : ReqId) (request : Request)
    (found : before.requests.get? reqId = some request) :
    ∃ old, before.requests.get? reqId = some old ∧ SameAccount old request :=
  ⟨request, found, SameAccount.refl request⟩

/-- All that is in flight of a preempted request becomes stale. -/
theorem Accounted.preempted (accounted : Accounted before) {old : Request} (dropStaleOutput : Bool)
    (found : before.requests.get? old.requestId = some old)
    (flight : after.flight = before.flight) (calls : after.calls = before.calls)
    (requests : after.requests =
      before.requests.set old.requestId (Engine.preempted old dropStaleOutput)) :
    Accounted after where
  positive := flight ▸ accounted.positive
  ordered := flight ▸ accounted.ordered
  epochs entry member request foundAfter := by
    rw [requests, OrderedMap.get_set] at foundAfter
    rw [flight] at member
    split at foundAfter
    · rename_i same
      cases foundAfter
      exact (accounted.epochs entry member old (same ▸ found)).trans (Nat.le_succ _)
    · exact accounted.epochs entry member request foundAfter
  inFlight reqId request foundAfter := by
    rw [requests, OrderedMap.get_set] at foundAfter
    rw [flight]
    split at foundAfter
    · rename_i same
      cases foundAfter
      exact accounted.inFlight reqId old (same ▸ found)
    · exact accounted.inFlight reqId request foundAfter
  stale reqId request foundAfter := by
    rw [requests, OrderedMap.get_set] at foundAfter
    rw [flight]
    split at foundAfter
    · rename_i same
      cases foundAfter
      have older : ∀ entry ∈ before.flight, entry.reqId = reqId →
          entry.epoch < old.numPreemptions + 1 := fun entry member own =>
        Nat.lt_succ_of_le (accounted.epochs entry member old (own ▸ same ▸ found))
      show old.numInFlightTokens = owed before.flight reqId (old.numPreemptions + 1)
      rw [owed_eq_outstanding older]
      exact accounted.inFlight reqId old (same ▸ found)
    · exact accounted.stale reqId request foundAfter
  opened reqId request foundAfter := by
    rw [requests, OrderedMap.get_set] at foundAfter
    rw [calls]
    split at foundAfter
    · rename_i same
      exact accounted.opened reqId old (same ▸ found)
    · exact accounted.opened reqId request foundAfter
  known entry member := by
    rw [calls]
    exact accounted.known entry (flight ▸ member)

/-- A scheduled request has more in flight, none of it stale. -/
theorem Accounted.advanced (accounted : Accounted before) {old request : Request} {tokens : Int}
    (found : before.requests.get? request.requestId = some old)
    (positive : 0 < tokens) (inFlight : request.numInFlightTokens = old.numInFlightTokens + tokens)
    (stale : request.numStaleOutputTokens = old.numStaleOutputTokens)
    (epoch : request.numPreemptions = old.numPreemptions)
    (flight : after.flight = before.flight ++
      [⟨request.requestId, tokens, old.numPreemptions⟩])
    (calls : after.calls = before.calls)
    (requests : after.requests = before.requests.set request.requestId request) :
    Accounted after where
  positive entry member := by
    rw [flight] at member
    rcases List.mem_append.mp member with earlier | last
    · exact accounted.positive entry earlier
    · rw [List.mem_singleton.mp last]
      exact positive
  ordered := by
    rw [flight, List.pairwise_append]
    refine ⟨accounted.ordered, List.pairwise_singleton _ _, fun early member late last own => ?_⟩
    rw [List.mem_singleton.mp last] at own ⊢
    exact accounted.epochs early member old (own ▸ found)
  epochs entry member other foundAfter := by
    rw [requests, OrderedMap.get_set] at foundAfter
    rw [flight] at member
    rcases List.mem_append.mp member with earlier | last
    · split at foundAfter
      · rename_i same
        cases foundAfter
        rw [epoch]
        exact accounted.epochs entry earlier old (same ▸ found)
      · exact accounted.epochs entry earlier other foundAfter
    · rw [List.mem_singleton.mp last] at foundAfter ⊢
      rw [if_pos rfl] at foundAfter
      cases foundAfter
      exact epoch.ge
  inFlight reqId other foundAfter := by
    rw [requests, OrderedMap.get_set] at foundAfter
    rw [flight, outstanding_append, outstanding_cons]
    split at foundAfter
    · rename_i same
      cases foundAfter
      rw [if_pos same.symm, inFlight, accounted.inFlight reqId old (same ▸ found)]
      exact congrArg _ (add_zero tokens).symm
    · rename_i differs
      rw [if_neg fun same => differs same.symm, accounted.inFlight reqId other foundAfter]
      exact (add_zero _).symm
  stale reqId other foundAfter := by
    rw [requests, OrderedMap.get_set] at foundAfter
    rw [flight, owed_append, owed_cons]
    split at foundAfter
    · rename_i same
      cases foundAfter
      rw [if_neg fun both => absurd both.2 (by rw [epoch]; exact lt_irrefl _), stale, epoch,
        accounted.stale reqId old (same ▸ found)]
      exact (add_zero _).symm
    · rename_i differs
      rw [if_neg fun both => differs both.1.symm, accounted.stale reqId other foundAfter]
      exact (add_zero _).symm
  opened reqId other foundAfter := by
    rw [requests, OrderedMap.get_set] at foundAfter
    rw [calls]
    split at foundAfter
    · rename_i same
      exact accounted.opened reqId old (same ▸ found)
    · exact accounted.opened reqId other foundAfter
  known entry member := by
    rw [flight] at member
    rw [calls]
    rcases List.mem_append.mp member with earlier | last
    · exact accounted.known entry earlier
    · rw [List.mem_singleton.mp last]
      exact accounted.opened request.requestId old found

/-- The oldest output has arrived; its request, where it is still there, has drained its share. -/
theorem Accounted.popped (accounted : Accounted before) {entry : InFlight} {rest : List InFlight}
    (oldest : before.flight = entry :: rest) (flight : after.flight = rest)
    (calls : after.calls = before.calls)
    (own : ∀ request, after.requests.get? entry.reqId = some request →
      ∃ old, before.requests.get? entry.reqId = some old ∧ Drained entry old request)
    (others : ∀ reqId, reqId ≠ entry.reqId →
      after.requests.get? reqId = before.requests.get? reqId) :
    Accounted after := by
  have kept : ∀ other ∈ rest, other ∈ before.flight := fun other member => by
    rw [oldest]
    exact List.mem_cons_of_mem _ member
  have each : ∀ reqId request, after.requests.get? reqId = some request → ∃ old,
      before.requests.get? reqId = some old ∧ request.numPreemptions = old.numPreemptions := by
    intro reqId request found
    by_cases same : reqId = entry.reqId
    · obtain ⟨old, foundBefore, share⟩ := own request (same ▸ found)
      exact ⟨old, same ▸ foundBefore, share.epoch⟩
    · exact ⟨request, (others reqId same).symm.trans found, rfl⟩
  have ordered := accounted.ordered
  rw [oldest, List.pairwise_cons] at ordered
  refine ⟨fun other member => ?_, ?_, fun other member request found => ?_,
    fun reqId request found => ?_, fun reqId request found => ?_, fun reqId request found => ?_,
    fun other member => ?_⟩
  · exact accounted.positive other (kept other (flight ▸ member))
  · rw [flight]
    exact ordered.2
  · obtain ⟨old, foundBefore, epoch⟩ := each _ request found
    rw [epoch]
    exact accounted.epochs other (kept other (flight ▸ member)) old foundBefore
  · rw [flight]
    by_cases same : reqId = entry.reqId
    · subst same
      obtain ⟨old, foundBefore, share⟩ := own request found
      rw [share.inFlight]
      exact (accounted.arrived oldest foundBefore).1
    · rw [accounted.inFlight reqId request ((others reqId same).symm.trans found), oldest,
        outstanding_cons, if_neg fun equal => same equal.symm, zero_add]
  · rw [flight]
    by_cases same : reqId = entry.reqId
    · subst same
      obtain ⟨old, foundBefore, share⟩ := own request found
      rw [share.stale, share.epoch]
      exact (accounted.arrived oldest foundBefore).2
    · rw [accounted.stale reqId request ((others reqId same).symm.trans found), oldest,
        owed_cons, if_neg fun both => same both.1.symm, zero_add]
  · obtain ⟨old, foundBefore, _⟩ := each reqId request found
    rw [calls]
    exact accounted.opened reqId old foundBefore
  · rw [calls]
    exact accounted.known other (kept other (flight ▸ member))

/-- A request that is new to the connector has nothing in flight. -/
theorem Accounted.added (accounted : Accounted before) {request : Request}
    (unknown : EngineCall.onNewRequest request.requestId ∉ before.calls)
    (unscheduled : request.numInFlightTokens = 0 ∧ request.numStaleOutputTokens = 0 ∧
      request.lastSchedSeq = 0)
    (flight : after.flight = before.flight)
    (calls : after.calls = before.calls ++ [.onNewRequest request.requestId])
    (requests : after.requests = before.requests.set request.requestId request) :
    Accounted after := by
  have absent : ∀ entry ∈ before.flight, entry.reqId ≠ request.requestId :=
    fun entry member same => unknown (same ▸ accounted.known entry member)
  have nothing : ∀ epoch, outstanding before.flight request.requestId = 0 ∧
      owed before.flight request.requestId epoch = 0 := by
    intro epoch
    unfold outstanding owed
    rw [List.filter_eq_nil_iff.mpr fun entry member listed =>
        absent entry member (of_decide_eq_true listed),
      List.filter_eq_nil_iff.mpr fun entry member listed =>
        absent entry member (of_decide_eq_true listed).1]
    exact ⟨rfl, rfl⟩
  have grows : ∀ call ∈ before.calls, call ∈ after.calls := fun call member => by
    rw [calls]
    exact List.mem_append_left _ member
  refine ⟨flight ▸ accounted.positive, flight ▸ accounted.ordered,
    fun entry member other found => ?_, fun reqId other found => ?_, fun reqId other found => ?_,
    fun reqId other found => ?_, fun entry member => ?_⟩
  · rw [flight] at member
    rw [requests, OrderedMap.get_set_of_ne _ _ (absent entry member)] at found
    exact accounted.epochs entry member other found
  · rw [requests, OrderedMap.get_set] at found
    rw [flight]
    split at found
    · rename_i same
      cases found
      rw [same, (nothing 0).1, unscheduled.1]
    · exact accounted.inFlight reqId other found
  · rw [requests, OrderedMap.get_set] at found
    rw [flight]
    split at found
    · rename_i same
      cases found
      rw [same, (nothing _).2, unscheduled.2.1]
    · exact accounted.stale reqId other found
  · rw [requests, OrderedMap.get_set] at found
    split at found
    · rename_i same
      rw [calls, same]
      exact List.mem_append_right _ List.mem_cons_self
    · exact grows _ (accounted.opened reqId other found)
  · exact grows _ (accounted.known entry (flight ▸ member))

/-- A move keeps the counters true. -/
theorem accounted_move (accounted : Accounted before) (move : Move before after) :
    Accounted after := by
  have more : ∀ (desk : Desk) (call : EngineCall), ∀ earlier ∈ desk.calls,
      earlier ∈ desk.calls ++ [call] := fun _ _ _ member => List.mem_append_left _ member
  cases move with
  | told _ _ => exact accounted.of_same rfl (more _ _) each_refl
  | edited found account _ _ =>
      exact accounted.of_same rfl (fun _ member => member) (each_of_set found account)
  | requeued found account _ _ _ _ _ _ =>
      exact accounted.of_same rfl (fun _ member => member) (each_of_set found account)
  | skipped _ => exact accounted.of_same rfl (fun _ member => member) each_refl
  | preempted dropStaleOutput found _ => exact accounted.preempted dropStaleOutput found rfl rfl rfl
  | admitted found account _ _ _ _ =>
      exact accounted.of_same rfl (fun _ member => member) (each_of_set found account)
  | advanced found _ _ positive inFlight stale epoch _ =>
      exact accounted.advanced found positive inFlight stale epoch rfl rfl rfl
  | @drained old request entry rest oldest own found _ _ share =>
      refine accounted.popped oldest rfl rfl (fun other foundAfter => ?_) (fun other differs => ?_)
      · refine ⟨old, own ▸ found, ?_⟩
        change (before.requests.set request.requestId request).get? entry.reqId = some other
          at foundAfter
        rw [own, OrderedMap.get_set_self] at foundAfter
        cases foundAfter
        exact share
      · exact OrderedMap.get_set_of_ne _ _ (own ▸ differs)
  | passed oldest gone =>
      refine accounted.popped oldest rfl rfl (fun other foundAfter => ?_) (fun _ _ => rfl)
      cases gone.symm.trans foundAfter
  | stopped found account _ _ =>
      exact accounted.of_same rfl (more _ _) (each_of_set found account)
  | paused found account _ _ _ =>
      exact accounted.of_same rfl (fun _ member => member) (each_of_set found account)
  | continued found account _ _ =>
      exact accounted.of_same rfl (fun _ member => member) (each_of_set found account)
  | ended found account _ _ =>
      exact accounted.of_same rfl (more _ _) (each_of_set found account)
  | added _ _ _ _ unknown unscheduled =>
      exact accounted.added unknown unscheduled rfl rfl rfl
  | @forgotten request _ _ =>
      refine accounted.of_same rfl (fun _ member => member) fun reqId other found => ?_
      change (before.requests.erase request.requestId).get? reqId = some other at found
      rw [OrderedMap.get_erase] at found
      split at found
      · cases found
      · exact each_refl reqId other found
  | freed _ _ => exact accounted.of_same rfl (more _ _) each_refl
  | deferred _ _ => exact accounted.of_same rfl (more _ _) each_refl
  | copied _ =>
      split
      · exact accounted.of_same rfl (more _ _) each_refl
      · exact accounted.of_same rfl (fun _ member => member) each_refl
  | released _ _ => exact accounted.of_same rfl (more _ _) each_refl
  | sent _ _ => exact accounted.of_same rfl (more _ _) each_refl
  | processed => exact accounted.of_same rfl (fun _ member => member) each_refl

theorem accounted_moves (accounted : Accounted before) (moves : Moves before after) :
    Accounted after := by
  induction moves with
  | refl => exact accounted
  | tail _ move ih => exact accounted_move ih move

end Moves

end KvOffload.EngineAccounts
