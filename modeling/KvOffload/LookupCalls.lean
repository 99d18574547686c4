import KvOffload.LookupCoverage
import Mathlib.Logic.Relation

/-!
# What a lookup asks the manager

The search for a hit reaches the manager through single lookups of keys, all for the same
request, and through touches. Whatever these keep, the whole search keeps.
-/

namespace KvOffload.LookupCalls

open KvOffload KvOffload.Base KvOffload.ConnectorConfig KvOffload.ConnectorRequests
open KvOffload.ManagerInterface KvOffload.ConnectorLookup

set_option autoImplicit false

variable {M : Type} [OffloadingLookup M]

/-- One call of the search. -/
inductive Asks (reqContext : ReqContext) : M → M → Prop where
  | looked {manager after : M} {key : OffloadKey} {result : LookupResult}
      (call : OffloadingLookup.lookup manager key reqContext = .ok (result, after)) :
      Asks reqContext manager after
  | touched (manager : M) (keys : List OffloadKey) :
      Asks reqContext manager (OffloadingLookup.touch manager keys)

/-- Any number of calls. -/
abbrev Asked (reqContext : ReqContext) : M → M → Prop :=
  Relation.ReflTransGen (Asks reqContext)

section Scans

variable {reqContext : ReqContext}

theorem asked_lookup {manager after : M} {key : OffloadKey} {result : LookupResult}
    (call : OffloadingLookup.lookup manager key reqContext = .ok (result, after)) :
    Asked reqContext manager after :=
  .single (.looked call)

theorem prefix_lookup_asked (mirrorLocal : Bool) (keys : List OffloadKey) {manager after : M}
    {hitCount : Nat} {deferLookup : Bool} {result : Option Nat}
    (looked : maximalPrefixLookup mirrorLocal reqContext manager hitCount deferLookup keys =
      .ok (result, after)) : Asked reqContext manager after := by
  induction keys generalizing manager hitCount deferLookup with
  | nil =>
      cases looked
      exact .refl
  | cons key rest ih =>
      obtain ⟨⟨answer, answered⟩, call, looked⟩ := bind_eq_ok.mp looked
      apply Relation.ReflTransGen.head (.looked call)
      cases answer with
      | miss =>
          cases looked
          exact .refl
      | hit =>
          have later := ih looked
          split at later
          · exact .head (.touched answered [key]) later
          · exact later
      | hitPending => exact ih looked
      | retry => exact ih looked

theorem window_scan_asked (window : Nat) (keys : List OffloadKey) {manager after : M}
    {consecutiveHits : Nat} {deferLookup : Bool} {result : Option Nat}
    (looked : slidingWindowScan window reqContext manager consecutiveHits deferLookup keys =
      .ok (result, after)) : Asked reqContext manager after := by
  induction keys generalizing manager consecutiveHits deferLookup with
  | nil =>
      cases looked
      exact .refl
  | cons key rest ih =>
      obtain ⟨⟨answer, answered⟩, call, looked⟩ := bind_eq_ok.mp looked
      apply Relation.ReflTransGen.head (.looked call)
      dsimp only at looked
      generalize (if answer = .hit ∨ answer = .hitPending then consecutiveHits + 1 else 0) =
        hits at looked
      split at looked
      · cases looked
        exact .refl
      · exact ih looked

end Scans

section Search

variable {config : SchedulerOffloadConfig} {mirrorLocal : Bool} {status : RequestOffloadState}
  {numComputedTokens : Nat}

theorem query_group_asked {group : GroupOffloadConfig} {keys : List OffloadKey}
    {isEagleUnverified : Bool} {manager after : M} {result : Option Nat}
    (queried : queryGroup mirrorLocal status group keys isEagleUnverified manager =
      .ok (result, after)) : Asked status.reqContext manager after := by
  unfold queryGroup at queried
  split at queried
  · exact prefix_lookup_asked mirrorLocal keys queried
  · exact window_scan_asked _ keys.reverse queried

theorem lookup_group_asked {state : Convergence numComputedTokens} {manager after : M}
    {group : GroupOffloadConfig} {result : Option (Convergence numComputedTokens)}
    (looked : lookupGroup config mirrorLocal status state manager group = .ok (result, after)) :
    Asked status.reqContext manager after := by
  obtain ⟨_, ⟨_, _, same⟩ | ⟨_, numHitChunks, queried, _⟩⟩ := lookup_group_ok looked
  · rw [same]
  · exact query_group_asked queried

theorem lookup_pass_asked (groups : List GroupOffloadConfig)
    {state : Convergence numComputedTokens} {manager after : M}
    {result : Option (Convergence numComputedTokens)}
    (passed : lookupPass config mirrorLocal status state manager groups = .ok (result, after)) :
    Asked status.reqContext manager after := by
  induction groups generalizing state manager with
  | nil =>
      cases passed
      exact .refl
  | cons group rest ih =>
      obtain ⟨⟨middle, next⟩, looked, passed⟩ := bind_eq_ok.mp passed
      have first := lookup_group_asked looked
      cases middle with
      | none =>
          cases passed
          exact first
      | some middle => exact first.trans (ih passed)

theorem converge_asked (groups : List GroupOffloadConfig)
    {state : Convergence numComputedTokens} {manager after : M}
    {result : Option (Convergence numComputedTokens)}
    (converged : converge config mirrorLocal status state manager groups =
      .ok (result, after)) : Asked status.reqContext manager after := by
  induction state, manager, groups using
      @converge.induct M inferInstance config mirrorLocal status numComputedTokens with
  | case1 state manager =>
      rw [converge] at converged
      cases converged
      exact .refl
  | case2 state manager group rest problem failed =>
      obtain ⟨_, passed, _⟩ := bind_eq_ok.mp
        ((LookupCoverage.converge_cons _ _ _ _).symm.trans converged)
      cases failed.symm.trans passed
  | case3 state manager group rest middle passed =>
      obtain ⟨_, same, done⟩ := bind_eq_ok.mp
        ((LookupCoverage.converge_cons _ _ _ _).symm.trans converged)
      cases passed.symm.trans same
      cases done
      exact lookup_pass_asked _ passed
  | case4 state manager group rest middle next passed ih =>
      obtain ⟨_, same, later⟩ := bind_eq_ok.mp
        ((LookupCoverage.converge_cons _ _ _ _).symm.trans converged)
      cases passed.symm.trans same
      exact (lookup_pass_asked _ passed).trans (ih later)

theorem lookup_complete_chunks_asked {mambaAlignSize : Option Nat}
    {chunksBeingLoaded : Option (Finset OffloadKey)} {manager after : M} {result : Option Nat}
    (looked : lookupCompleteChunks config mirrorLocal status mambaAlignSize chunksBeingLoaded
      manager = .ok (result, after)) : Asked status.reqContext manager after := by
  obtain ⟨⟨answer, middle⟩, converged, looked⟩ := bind_eq_ok.mp looked
  have search := converge_asked _ converged
  cases answer with
  | none =>
      cases looked
      exact search
  | some state =>
      dsimp only at looked
      split at looked
      · cases looked
        exact search
      · split at looked
        · cases looked
          exact search
        · cases looked
          exact search

theorem lookup_boundary_asked (boundary : Nat) (groups : List GroupOffloadConfig)
    {manager after : M} {boundaryPending : Bool} {result : Bool × Bool}
    (looked : lookupBoundary config status boundary manager boundaryPending groups =
      .ok (result, after)) : Asked status.reqContext manager after := by
  induction groups generalizing manager boundaryPending with
  | nil =>
      cases looked
      exact .refl
  | cons group rest ih =>
      obtain ⟨key, _, looked⟩ := bind_eq_ok.mp looked
      obtain ⟨⟨answer, answered⟩, call, looked⟩ := bind_eq_ok.mp looked
      apply Relation.ReflTransGen.head (.looked call)
      cases answer with
      | miss =>
          cases looked
          exact .refl
      | hit => exact ih looked
      | hitPending => exact ih looked
      | retry => exact ih looked

theorem scan_tail_asked (boundaries : List Nat) {manager after : M} {pending : Bool}
    {result : Option Nat × Bool}
    (scanned : scanTail config status manager pending boundaries = .ok (result, after)) :
    Asked status.reqContext manager after := by
  induction boundaries generalizing manager pending with
  | nil =>
      cases scanned
      exact .refl
  | cons boundary rest ih =>
      obtain ⟨⟨⟨missed, boundaryPending⟩, middle⟩, looked, scanned⟩ := bind_eq_ok.mp scanned
      have first := lookup_boundary_asked boundary _ looked
      dsimp only at scanned
      split at scanned
      · cases scanned
        exact first
      · exact first.trans (ih scanned)

theorem lookup_asked {mambaAlignSize : Option Nat}
    {chunksBeingLoaded : Option (Finset OffloadKey)} {manager after : M}
    {result : Option Nat × Option Nat}
    (looked : lookup config mirrorLocal status mambaAlignSize chunksBeingLoaded manager =
      .ok (result, after)) : Asked status.reqContext manager after := by
  obtain ⟨⟨completeHit, middle⟩, complete, looked⟩ := bind_eq_ok.mp looked
  have first := lookup_complete_chunks_asked complete
  cases completeHit with
  | none =>
      cases looked
      exact first
  | some completeHit =>
      dsimp only at looked
      split at looked
      · cases looked
        exact first
      · obtain ⟨⟨⟨boundary, pending⟩, last⟩, scanned, looked⟩ := bind_eq_ok.mp looked
        have tail := first.trans (scan_tail_asked _ scanned)
        cases boundary with
        | some boundary =>
            cases looked
            exact tail
        | none =>
            dsimp only at looked
            split at looked
            · cases looked
              exact tail
            · cases looked
              exact tail

end Search

end KvOffload.LookupCalls
