import SimCore.Simd.StartHandler

/-!
# Completion of requests and timeouts of their callers

The local work of a request is over: its resources are released, a consumer acknowledges its
message, and the downstream calls of its endpoint are made. A request without synchronous calls is
finalised at once, or at the publish acknowledgement of its broker edges; one with synchronous calls
waits for all of them.

## Main definitions

* `handleRequestComplete`, `handleAsyncParentFinalize`, `handleDownstreamTimeout`
-/

namespace SimCore.Simd

open Config Interaction Resource

/-! ### Downstream calls -/

/-- Whether the limits on trace expansion allow an edge. -/
def withinLimits (sc : Scenario) (rc : ResolvedCall) (td ad : Int) : Bool :=
  let isAsync := rc.call.isAsync || usesAsyncBroker sc rc
  let nextAD := if isAsync then ad + 1 else ad
  match sc.simulationLimits with
  | none => true
  | some lim =>
    !(decide (lim.maxTraceDepth > 0) && decide (td + 1 > lim.maxTraceDepth)) &&
      !(decide (lim.maxAsyncHops > 0) && isAsync && decide (nextAD > lim.maxAsyncHops))

/-- The allowed calls, asynchronous and broker edges first, then synchronous ones. -/
def partitionDownstreamFiltered (sc : Scenario) (calls : List ResolvedCall) (td ad : Int) :
    List ResolvedCall × List ResolvedCall :=
  (calls.filter fun rc => withinLimits sc rc td ad).partition fun rc =>
    usesAsyncBroker sc rc || rc.call.isAsync

/-- Whether a broker edge makes its publisher wait for the acknowledgement. -/
def defersFinalize (sc : Scenario) (rc : ResolvedCall) : Bool :=
  if usesTopicBroker sc rc then !(effectiveTopicForBroker sc rc.serviceID).asyncFireAndForget
  else if usesQueueBroker sc rc then !(effectiveQueueForBroker sc rc.serviceID).asyncFireAndForget
  else false

/-- Caller metadata of a completed request. -/
def callerOf (q : Request) : CallerTopology :=
  ⟨q.text "instance_id", q.text "caller_host_zone", q.text "caller_host_id"⟩

/-- Time cursor and latest acknowledgement of the calls scheduled so far. -/
structure CallCursor where
  tAfter : Time
  maxAck : Option Time := none

def scheduleAsyncCall (env : Env) (r : ReqId) (caller : CallerTopology) (td ad : Int)
    (acc : CallCursor × State) (rc : ResolvedCall) : CallCursor × State :=
  let c : EdgeCall :=
    { target := rc, parent := r, nextTD := td + 1, nextAD := ad + 1, isAsync := true
      caller := caller, edge := some rc }
  let (ack, s) := scheduleDownstreamWithCallerOverhead env acc.2 c acc.1.tAfter
  let s := if usesAsyncBroker env.scenario rc then s.observe (.publishAck r ack) else s
  let maxAck :=
    match acc.1.maxAck with
    | some t => if ack > t then ack else t
    | none => ack
  (⟨ack, some maxAck⟩, s)

/-- Schedules one synchronous edge as the logical call with the given number. -/
def scheduleSyncCall (env : Env) (r : ReqId) (caller : CallerTopology) (td ad : Int)
    (acc : Time × State) (entry : ResolvedCall × CallId) : Time × State :=
  scheduleDownstreamWithCallerOverhead env acc.2
    { target := entry.1, parent := r, nextTD := td + 1, nextAD := ad, isAsync := false
      caller := caller, call := some entry.2, edge := some entry.1 } acc.1

/-- The request waits for `n` logical calls, numbered from the old length of `State.calls`. -/
def State.awaitCalls (s : State) (r : ReqId) (n : Nat) : State :=
  { s with pendingSync := Function.update s.pendingSync r (some n)
           calls := s.calls ++ List.replicate n r }

/-- Schedules all synchronous edges; returns the time after the last one. -/
def scheduleSyncCalls (env : Env) (s : State) (r : ReqId) (caller : CallerTopology) (td ad : Int)
    (calls : List ResolvedCall) (base : CallId) (t : Time) : Time × State :=
  (calls.zipIdx base).foldl (scheduleSyncCall env r caller td ad) (t, s)

/-- The next request of the instance, if the request had one. -/
def dequeueNext (s : State) (r : ReqId) (t : Time) : State :=
  match (s.req r).instanceID with
  | some id => dequeueNextRequestForInstance s id (s.req r).serviceName t
  | none => s

/-- Defers the finalisation of a publisher until its last acknowledgement. -/
def deferFinalize (s : State) (r : ReqId) (maxAck : Time) (extraMs : ℚ) : State :=
  (s.update r fun q =>
    { q with deferredQueueFinalize := true, queueAckDeadline := some maxAck
             deferredCallerExtraMs := extraMs }).observe (.finalizeDeferred r maxAck)

/-- Makes the downstream calls of a request whose local work succeeded. -/
def makeDownstreamCalls (env : Env) (s : State) (r : ReqId) : State :=
  let q := s.req r
  let (selected, draws) := selectCalls env.branching.float64 s.branchDraws
    (downstreamEdges env.scenario q.serviceName q.endpoint)
  let s := { s with branchDraws := draws }
  let (asyncCalls, syncCalls) :=
    partitionDownstreamFiltered env.scenario selected q.traceDepth q.asyncDepth
  let defers := asyncCalls.any (defersFinalize env.scenario)
  let extraMs := ((asyncCalls ++ syncCalls).map (computeDownstreamCallerCPU env.scenario)).sum
  let s := if defers then s else recordServiceLatencies s r extraMs
  let s := if q.cacheMiss then s.record .cacheMissCount 1 q.labels (some r) else s
  let caller := callerOf q
  let (cursor, s) := asyncCalls.foldl
    (scheduleAsyncCall env r caller q.traceDepth q.asyncDepth) (⟨s.now, none⟩, s)
  let maxAck := cursor.maxAck.getD 0
  let s := if defers then deferFinalize s r maxAck extraMs else s
  if syncCalls.isEmpty then
    if defers then
      dequeueNext (s.scheduleAt maxAck (.asyncParentFinalize r)) r maxAck
    else dequeueNext (finalizeRequestCompletion env s r) r cursor.tAfter
  else
    let base := s.calls.length
    let s := s.awaitCalls r syncCalls.length
    let s := if defers then s.scheduleAt maxAck (.asyncParentFinalize r) else s
    let (tAfter, s) := scheduleSyncCalls env s r caller q.traceDepth q.asyncDepth syncCalls base
      cursor.tAfter
    dequeueNext s r (if defers ∧ maxAck > tAfter then maxAck else tAfter)

/-! ### Completion -/

/-- Returns CPU, memory and datastore slot of a request. -/
def releaseResources (s : State) (r : ReqId) : State :=
  let q := s.req r
  match q.instanceID with
  | none => s
  | some id =>
    let rm := if q.allocatedCPUMs.isSome then s.rm.releaseCPU id s.now else s.rm
    let rm :=
      match q.allocatedMemoryMB with
      | some mb => rm.releaseMemory id mb
      | none => rm
    let rm := if q.dbReserved then rm.releaseDBConnection id else rm
    recordInstanceAndHostGauges { s with rm := rm } q.serviceName id s.now

/-- A consumer acknowledges its message. -/
def acknowledge (s : State) (r : ReqId) : State :=
  match (s.req r).delivery with
  | none => s
  | some ⟨.queue brokerID topic, _⟩ => metaQueueConsumerDone s r brokerID topic
  | some ⟨.topic brokerID topic partition group, msg⟩ =>
    metaTopicConsumerDone s r brokerID topic partition group msg.topicOffset

/-- The request ran into its endpoint's deadline. -/
def completeLocalTimeout (env : Env) (s : State) (r : ReqId) : State :=
  let q := s.req r
  let s := recordServiceLatencies s r 0
  let s := if q.cacheHit then s.record .cacheHitCount 1 q.labels (some r) else s
  let s := if q.cacheMiss then s.record .cacheMissCount 1 q.labels (some r) else s
  dequeueNext (finalizeRequestFailure env s r "local_failure") r s.now

/-- A cache hit makes no downstream calls. -/
def completeCacheHit (env : Env) (s : State) (r : ReqId) : State :=
  let s := recordServiceLatencies s r 0
  let s := s.record .cacheHitCount 1 (s.req r).labels (some r)
  dequeueNext (finalizeRequestCompletion env s r) r s.now

/-- The local work of a request is over. -/
def handleRequestComplete (env : Env) (s : State) (r : ReqId) : State :=
  let s := releaseResources (drainTick s) r
  if (s.req r).brokerAckTimedOut then
    (dequeueNext s r s.now).observe (.completedAfterAckTimeout r)
  else
    let s := acknowledge s r
    if (s.req r).localTimeout then completeLocalTimeout env s r
    else if (s.req r).cacheHit then completeCacheHit env s r
    else makeDownstreamCalls env s r

/-- The publish acknowledgement of a deferred publisher. -/
def handleAsyncParentFinalize (env : Env) (s : State) (r : ReqId) : State :=
  let s := { s with rm := s.rm.noteSimTime s.now }
  if (s.pendingSync r).any fun n => n > 0 then s.observe (.ackPassed r)
  else
    let extraMs := (s.req r).deferredCallerExtraMs
    let s := s.update r fun q =>
      { q with deferredQueueFinalize := false, queueAckDeadline := none
               deferredCallerExtraMs := 0 }
    let s := recordServiceLatencies s r extraMs
    dequeueNext (finalizeRequestCompletion env s r) r s.now

/-! ### Timeouts of callers -/

/-- An asynchronous call times out: the caller retries it, or gives up the operation. -/
def timeoutAsync (env : Env) (s : State) (child parent : ReqId) : State :=
  let q := s.req child
  if q.status = .completed ∨ q.status = .failed then s
  else if q.asyncOpTimedOut then s
  else
    let s := s.record .requestErrorCount 1 (endpointErrorLabels q.labels "timeout") (some child)
    let s := s.observe (.breaker child false)
    match maybeRetryAsyncTimeout env s child parent with
    | some s => s
    | none => s.update child fun q => { q with asyncOpTimedOut := true }

/-- A synchronous call times out: the caller retries it, or counts it as failed. -/
def timeoutSync (env : Env) (s : State) (child parent : ReqId) : State :=
  let q := s.req child
  if q.status = .completed then s
  else
    let s := s.update child fun q => { q with syncWaitTimedOut := true }
    let s := s.record .requestErrorCount 1 (endpointErrorLabels q.labels "timeout") (some child)
    let s := s.observe (.breaker child false)
    match maybeRetrySyncTimeout env s child parent with
    | some s => s
    | none => notifyParentSyncChildResolved env s child parent true

def handleDownstreamTimeout (env : Env) (s : State) (child parent : ReqId) (isAsync : Bool) :
    State :=
  let s := { s with rm := s.rm.noteSimTime s.now }
  if s.run.knows child = false then s
  else if (s.req child).callerSyncResolved then s
  else if isAsync then timeoutAsync env s child parent
  else timeoutSync env s child parent

end SimCore.Simd
