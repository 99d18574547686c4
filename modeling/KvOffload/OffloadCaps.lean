import KvOffload.RequestRecords

/-!
# The offload cap of a request

A request may bound the tokens that are stored for it. The keys of its chunks and its
boundary keys say where their tokens end; what the connector keeps of a request only grows,
so that a job entered within the cap stays within it.
-/

namespace KvOffload.OffloadCaps

open KvOffload KvOffload.Base KvOffload.PolicyInterface KvOffload.CpuManager KvOffload.Tiering
open KvOffload.ConnectorConfig KvOffload.ConnectorRequests KvOffload.ManagerInterface
open KvOffload.ConnectorScheduler KvOffload.ConnectorLoads KvOffload.ConnectorStores
open KvOffload.RequestRecords

set_option autoImplicit false

/-- Where the tokens of a key of a request end. -/
inductive EndsAt (config : SchedulerOffloadConfig) (status : RequestOffloadState) :
    OffloadKey → Nat → Prop
  | chunk {group : GroupOffloadConfig} {chunkIdx : Nat} {key : OffloadKey}
      (member : group ∈ config.kvGroupConfigs)
      (found : (status.groupStates group.groupIdx).offloadKeys[chunkIdx]? = some key) :
      EndsAt config status key ((chunkIdx + 1) * group.tokensPerChunk)
  | tail {group : GroupOffloadConfig} {boundary : Nat} {key : OffloadKey}
      (member : group ∈ config.kvGroupConfigs) (positive : 0 < boundary)
      (aligned : boundary % config.tokensPerHash = 0)
      (made : makeBoundaryKey config status.req group.groupIdx boundary = .ok key) :
      EndsAt config status key boundary

/-- No key stands for a token at or behind the cap. -/
def WithinCap (config : SchedulerOffloadConfig) (status : RequestOffloadState)
    (keys : List OffloadKey) : Prop :=
  ∀ maxOffloadTokens, status.maxOffloadTokens = some maxOffloadTokens →
    ∀ key ∈ keys, ∃ stop, EndsAt config status key stop ∧ stop ≤ maxOffloadTokens

/-- The cap that the parameters of a request ask for. -/
def requestedCap (req : Request) : Option Nat :=
  req.maxOffloadTokens.bind fun raw => if 0 ≤ raw then some raw.toNat else none

/-- The scheduler core appends block hashes and leaves the transfer parameters alone. -/
structure Grows (before after : Request) : Prop where
  hashes : before.blockHashes <+: after.blockHashes
  parameter : after.maxOffloadTokens = before.maxOffloadTokens

theorem grows_refl (req : Request) : Grows req req := ⟨List.prefix_rfl, rfl⟩

/-- What the connector keeps of a request. -/
structure Kept (before after : RequestOffloadState) : Prop where
  req : Grows before.req after.req
  cap : after.maxOffloadTokens = before.maxOffloadTokens
  keys : ∀ groupIdx, (before.groupStates groupIdx).offloadKeys <+:
    (after.groupStates groupIdx).offloadKeys

section Kept

variable {config : SchedulerOffloadConfig} {before middle after : RequestOffloadState}

theorem kept_refl (status : RequestOffloadState) : Kept status status :=
  ⟨grows_refl _, rfl, fun _ => List.prefix_rfl⟩

theorem kept_trans (first : Kept before middle) (second : Kept middle after) :
    Kept before after where
  req := ⟨first.req.hashes.trans second.req.hashes,
    second.req.parameter.trans first.req.parameter⟩
  cap := second.cap.trans first.cap
  keys := fun groupIdx => (first.keys groupIdx).trans (second.keys groupIdx)

/-- Advancing the store pointers keeps the keys, and so does skipping the chunks of a hit. -/
theorem kept_map_offloaded (config : SchedulerOffloadConfig) (status : RequestOffloadState)
    {change : GroupOffloadConfig → RequestGroupState → RequestGroupState}
    (same : ∀ group state, (change group state).offloadKeys = state.offloadKeys) :
    Kept status (status.mapOffloaded config change) := by
  refine ⟨grows_refl _, rfl, ?_⟩
  intro groupIdx
  unfold RequestOffloadState.mapOffloaded
  rw [RequestOffloadState.map_groups_states]
  split
  · exact List.prefix_rfl
  · rw [same]

theorem kept_advance (config : SchedulerOffloadConfig) (status : RequestOffloadState)
    (numOffloadableTokens : Nat) :
    Kept status (status.advanceStoredIdx config numOffloadableTokens) :=
  kept_map_offloaded config status fun _ _ => rfl

theorem kept_skip_hit_chunks (config : SchedulerOffloadConfig) (status : RequestOffloadState)
    (numCachedTokens : Nat) : Kept status (skipHitChunks config status numCachedTokens) := by
  unfold skipHitChunks
  split
  · exact kept_map_offloaded config status fun _ _ => rfl
  · exact kept_refl status

theorem kept_with_request {req : Request} (grows : Grows before.req req) :
    Kept before (before.withRequest req) :=
  ⟨grows, rfl, fun _ => List.prefix_rfl⟩

theorem known_stays {α : Type} {known grown : List α} (grows : known <+: grown) {index : Nat}
    {item : α} (found : known[index]? = some item) : grown[index]? = some item := by
  obtain ⟨rest, rfl⟩ := grows
  have inside := (List.getElem?_eq_some_iff.mp found).1
  rw [List.getElem?_append_left inside]
  exact found

theorem kept_ends_at (kept : Kept before after) {key : OffloadKey} {stop : Nat}
    (ends : EndsAt config before key stop) : EndsAt config after key stop := by
  cases ends with
  | @chunk group chunkIdx _ member found =>
      exact .chunk member (known_stays (kept.keys group.groupIdx) found)
  | @tail group _ _ member positive aligned made =>
      apply EndsAt.tail member positive aligned
      unfold makeBoundaryKey at made ⊢
      split at made
      · cases made
      · rename_i found
        rw [known_stays kept.req.hashes found]
        exact made

theorem kept_within_cap (kept : Kept before after) {keys : List OffloadKey}
    (within : WithinCap config before keys) : WithinCap config after keys := by
  intro maxOffloadTokens capped key member
  rw [kept.cap] at capped
  obtain ⟨stop, ends, bounded⟩ := within maxOffloadTokens capped key member
  exact ⟨stop, kept_ends_at kept ends, bounded⟩

end Kept

/-- Keys within the cap may be stored for a request, of which the cap and the keys are kept. -/
def capRule : RecordRule where
  Tables _ _ := True
  Keeps := Kept
  Stored := WithinCap
  steady := fun _ => trivial
  trans := kept_trans
  stored := fun kept within => kept_within_cap kept within
  noted := fun req _ _ cap groups =>
    ⟨req ▸ grows_refl _, cap, fun groupIdx => (groups groupIdx).keys⟩

theorem cap_rule_free : capRule.Free :=
  fun _ _ => trivial

end KvOffload.OffloadCaps
