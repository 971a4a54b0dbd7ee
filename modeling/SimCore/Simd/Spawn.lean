import SimCore.Simd.Finalization

/-!
# Downstream spawns and retries

Creation of downstream requests, and the decisions to replace a failed attempt by a new one. A retry
of a synchronous attempt isolates the attempt from its caller, so that a late answer cannot reach
the caller, and leaves the caller's pending counter alone.

## Main definitions

* `execDownstreamSpawn`: creates a downstream request and schedules its start and its timeout
* `maybeRetrySyncTimeout`, `maybeRetryAsyncTimeout`, `maybeRetrySyncStartFailure`,
  `maybeRetrySyncDependencyFailure`, `maybeRetrySyncCallerOverheadFailure`: `none` if no retry
  applies
-/

namespace SimCore.Simd

open Config Interaction Resource

/-! ### Retries -/

/-- The policy in force when an attempt with the given number may be followed by another one. -/
def retryPolicyFor (env : Env) (attempt : Int) : Option RetryPolicy :=
  (Policy.activeRetryPolicy env.scenario).filter fun p => Policy.shouldRetry p attempt

/-- Schedules a retry of a downstream spawn after the backoff. -/
def scheduleDownstreamRetryEvent (s : State) (p : RetryPolicy) (d : SpawnData) : State :=
  s.scheduleAt (s.now + Policy.getBackoffDuration p d.retryAttempt) (.downstreamRetry d)

/-- The spawn that retries an attempt. -/
def retrySpawn (child : Request) (parent : ReqId) (isAsync : Bool) : SpawnData where
  parent := parent
  serviceID := child.serviceName
  endpointPath := child.endpoint
  traceDepth := child.traceDepth
  asyncDepth := child.asyncDepth
  isAsync := isAsync
  timeoutMs := child.downstreamTimeoutMs
  retryAttempt := child.retryAttempt + 1
  caller := ⟨child.text "caller_instance_id", child.text "caller_host_zone",
    child.text "caller_host_id"⟩
  call := child.call
  onBehalf := child.onBehalf
  edge := child.edge

/-- Marks the child so that a late completion cannot notify its parent. -/
def isolateFailedSyncAttempt (q : Request) : Request :=
  { q with callerSyncResolved := true }

/-- Schedules a retry if the policy allows it and the parent is known; `mark` changes the child. -/
def maybeRetryWith (env : Env) (s : State) (child parent : ReqId) (isAsync : Bool)
    (mark : Request → Request) : Option State :=
  match retryPolicyFor env (s.req child).retryAttempt with
  | none => none
  | some p =>
    if s.run.knows parent then
      some (scheduleDownstreamRetryEvent (s.update child mark) p
        (retrySpawn (s.req child) parent isAsync))
    else none

def maybeRetrySyncTimeout (env : Env) (s : State) (child parent : ReqId) : Option State :=
  maybeRetryWith env s child parent false isolateFailedSyncAttempt

def maybeRetryAsyncTimeout (env : Env) (s : State) (child parent : ReqId) : Option State :=
  maybeRetryWith env s child parent true fun q => { q with asyncAttemptAbandoned := true }

/-- Retry after a failure at the start of a synchronous child. -/
def maybeRetrySyncStartFailure (env : Env) (s : State) (child : ReqId) : Option State :=
  match (s.req child).parent with
  | none => none
  | some parent =>
    if (s.req child).downstreamAsync then none
    else (maybeRetryWith env s child parent false isolateFailedSyncAttempt).map fun s' =>
      if (s.req child).callerSyncResolved then s'.observe (.retryAfterIsolation child) else s'

/-- Retry after a dependency failure, unless the edge forbids it. -/
def maybeRetrySyncDependencyFailure (env : Env) (s : State) (child : ReqId)
    (dsCall : DownstreamCall) : Option State :=
  if dsCall.isRetryable then maybeRetrySyncStartFailure env s child else none

/-- Retry after the caller's CPU for an edge could not be allocated. -/
def maybeRetrySyncCallerOverheadFailure (env : Env) (s : State) (d : SpawnData) : Option State :=
  if d.isAsync then none
  else
    (retryPolicyFor env d.retryAttempt).map fun p =>
      scheduleDownstreamRetryEvent s p
        { d with retryAttempt := d.retryAttempt + 1
                 caller := d.caller.orElse (callerTopologyFromRequest s.rm (s.req d.parent)) }

/-! ### Spawns -/

/-- Copies the metadata entries with the given keys. -/
def Request.inherit (q parent : Request) (keys : List String) : Request :=
  keys.foldl (fun q key =>
    match parent.lookup key with
    | some v => q.setText key v
    | none => q) q

theorem Request.inherit_toJob {keys : List String} (hk : "instance_id" ∉ keys)
    (q parent : Request) : (q.inherit parent keys).toJob = q.toJob := by
  unfold inherit
  induction keys generalizing q with
  | nil => rfl
  | cons key keys ih =>
    rw [List.mem_cons, not_or] at hk
    rw [List.foldl_cons, ih hk.2]
    split
    · exact setText_toJob (Ne.symm hk.1) ..
    · rfl

@[simp] theorem Request.setCaller_toJob (q : Request) (c : CallerTopology) :
    (q.setCaller c).toJob = q.toJob := by
  rw [setCaller, setTextIf_toJob (by decide), setTextIf_toJob (by decide),
    setTextIf_toJob (by decide)]

/-- `CreateDownstreamRequest`: copies the parent's instance. -/
def createDownstreamRequest (parent : Request) (p : ReqId) (serviceID path : String) : Request :=
  let q : Request := { parent := some p, serviceName := serviceID, endpoint := path }
  match parent.instanceID with
  | some id => q.setText "parent_instance_id" id
  | none => q

def newDownstreamRequest (s : State) (d : SpawnData) : Request :=
  let parent := s.req d.parent
  let q := createDownstreamRequest parent d.parent d.serviceID d.endpointPath
  let q :=
    { q with traceDepth := d.traceDepth, asyncDepth := d.asyncDepth, downstreamAsync := d.isAsync
             retryAttempt := d.retryAttempt, isRetry := decide (d.retryAttempt > 0)
             arrivalTime := s.now, call := d.call, onBehalf := d.onBehalf, edge := d.edge
             downstreamTimeoutMs := if d.timeoutMs > 0 then d.timeoutMs else 0 }
  (q.inherit parent ["workload_from", "workload_source_kind", "workload_traffic_class"]).setCaller
    (resolveCallerTopologyForSpawn s.rm parent d.caller)

/-- Whether the call fails before its attempt runs, with the draw used. -/
def drawDependencyFailure (env : Env) (s : State) (d : SpawnData) (dsCall : DownstreamCall) :
    Bool × State :=
  let p := mergedDependencyFailureRate dsCall (env.scenario.service? d.serviceID)
  if p > 0 then
    let (u, s) := s.float64 env
    (decide (u < p), s)
  else (false, s)

/-- Failure reason of a call that fails before its attempt runs. -/
def dependencyFailureReason (env : Env) (d : SpawnData) : String :=
  if ((env.scenario.service? d.serviceID).map Service.kindNorm) = some "external" then
    "external_failure"
  else "dependency_failure"

/-- The edge that a spawn follows; an unknown edge has no settings. -/
def spawnEdge (env : Env) (s : State) (d : SpawnData) : DownstreamCall :=
  let parent := s.req d.parent
  (resolveDownstreamCallSpec env.scenario parent.serviceName parent.endpoint d.serviceID
    d.endpointPath).getD {}

/-- An attempt that fails before it runs: it is retried, or finalised as failed. -/
def spawnDependencyFailure (env : Env) (s : State) (d : SpawnData) (dsCall : DownstreamCall) :
    State :=
  let r := s.heap.length
  let s := (s.alloc { newDownstreamRequest s d with status := .failed }).addRequest r
  let s := s.record .requestCount 1 (s.req r).labels (some r)
  match maybeRetrySyncDependencyFailure env s r dsCall with
  | some s =>
    (s.record .requestErrorCount 1
      (endpointErrorLabels (s.req r).labels (dependencyFailureReason env d)) (some r)).observe
        (.dependencyFailed r .retried)
  | none =>
    finalizeRequestFailure env (s.observe (.dependencyFailed r .finalized)) r
      (dependencyFailureReason env d)

/-- An attempt that runs: it starts now on the selected instance, and times out if the edge does. -/
def spawnAttempt (env : Env) (s : State) (d : SpawnData) : State :=
  let r := s.heap.length
  let q := newDownstreamRequest s d
  let s := s.record .requestCount 1 q.labels (some r)
  match selectInstanceForRequest env s q (some r) with
  | .error _ =>
    ((s.alloc { q with status := .failed }).record .requestErrorCount 1
      (endpointErrorLabels q.labels "no_instance") (some r)).observe (.callLost d)
  | .ok (instanceID, s) =>
    let s := (s.alloc (q.setText "instance_id" instanceID)).addRequest r
    let s := s.scheduleStart s.now r instanceID
    if d.timeoutMs > 0 then
      s.scheduleAt (s.now + wholeMsToDuration d.timeoutMs)
        (.downstreamTimeout r d.parent d.isAsync)
    else s

/-- Creates a downstream request, or drops the spawn if its service does not exist. -/
def execDownstreamSpawn (env : Env) (s : State) (d : SpawnData) : State :=
  match env.scenario.service? d.serviceID with
  | none => s.observe (.callLost d)
  | some _ =>
    let dsCall := spawnEdge env s d
    let s := s.observe (.attempted s.heap.length d.edge d.timeoutMs dsCall.failureRate
      dsCall.isRetryable)
    let (fails, s) := drawDependencyFailure env s d dsCall
    if fails then spawnDependencyFailure env s d dsCall else spawnAttempt env s d

end SimCore.Simd
