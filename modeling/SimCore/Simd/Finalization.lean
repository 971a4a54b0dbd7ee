import SimCore.Simd.Telemetry

/-!
# Request finalisation

Completion and failure of a request, and what its synchronous parent learns from it. A parent that
waits for synchronous children counts them in `State.pendingSync`; the child that brings the counter
to zero finalises the parent, which may in turn be the last child of its own parent.

The three functions of the source that walk up this chain call each other. Here the chain is one
recursion `finalizeChain` on a bound, and the source functions are its instances; a request is
older than its children, so the name of the request is a sufficient bound.

## Main definitions

* `finalizeRequestCompletion`, `finalizeRequestFailure`
* `notifyParentSyncChildResolved`
* `propagateSyncPendingFromCallerOverheadFailure`, `propagateSyncChildFailureFromStartFailure`
-/

namespace SimCore.Simd

open Config Interaction Resource

/-- How a request is finalised. -/
inductive Outcome where
  | completion
  | failure (reason : String)
deriving DecidableEq

/-- Hop metrics that were deferred until the publish acknowledgement. -/
def recordDeferredQueueParentMetricsIfNeeded (s : State) (p : ReqId) : State :=
  if (s.req p).deferredQueueFinalize then
    (recordServiceLatencies s p (s.req p).deferredCallerExtraMs).update p fun q =>
      { q with deferredCallerExtraMs := 0, deferredQueueFinalize := false
               queueAckDeadline := none }
  else s

/-- Takes one off the counter of a waiting request; `none` if it does not wait. -/
def decrementPendingSync (s : State) (p : ReqId) (call : Option CallId) : Option (Nat × State) :=
  match s.pendingSync p with
  | none => none
  | some n =>
    if n = 0 then none
    else
      let left := if n - 1 = 0 then none else some (n - 1)
      some (n - 1,
        { s with pendingSync := Function.update s.pendingSync p left }.observe
          (.decrement p call s.now))

/-- Marks a known request as having a failed subtree. -/
def markSubtreeFailed (s : State) (p : ReqId) : State :=
  if s.run.knows p then s.update p fun q => { q with subtreeFailed := true } else s

/-- The request is over: its status, its times and the guard against a second finalisation. -/
def closeRequest (s : State) (r : ReqId) (status : Status) (error : String) : State :=
  s.update r fun q =>
    { q with desFinalized := true, status := status, completionTime := some s.now
             error := if error = "" then q.error else error }

/-- Latency of a finalised request, and the root series for an ingress request. -/
def recordTotalLatency (s : State) (r : ReqId) : State :=
  let q := s.req r
  let ms := durationToMs (s.now - q.arrivalTime)
  let s := s.record .requestLatency ms q.labels (some r)
  if q.isRoot then s.record .rootRequestLatency ms q.labels (some r) else s

/-- Samples of a failed request; an ingress request also counts as a logical failure. -/
def recordFailureSamples (s : State) (r : ReqId) (reason : String) : State :=
  let q := s.req r
  let el := endpointErrorLabels q.labels reason
  let s := s.record .requestErrorCount 1 el (some r)
  if q.isRoot then s.record .ingressLogicalFailure 1 el (some r) else s

section Cascade

variable (env : Env) (finalize : State → ReqId → Outcome → State)

/-- Finalises a parent whose last synchronous child has resolved. -/
def resolveLastChild (s : State) (p : ReqId) : State :=
  match s.getRequest p with
  | none => s.observe (.parentUnknown p)
  | some parent =>
    if parent.subtreeFailed then finalize s p (.failure "downstream_failure")
    else
      match parent.queueAckDeadline with
      | some deadline =>
        if s.now < deadline then s.observe (.heldForAck p)
        else finalize (recordDeferredQueueParentMetricsIfNeeded s p) p .completion
      | none => finalize (recordDeferredQueueParentMetricsIfNeeded s p) p .completion

/-- Reports a resolved child to its synchronous parent, at most once. -/
def notifyParentWith (s : State) (child parent : ReqId) (childFailed : Bool) : State :=
  if (s.req child).downstreamAsync then s
  else if (s.req child).callerSyncResolved then s
  else
    let s := s.update child fun q => { q with callerSyncResolved := true }
    match decrementPendingSync s parent (s.req child).call with
    | none => s
    | some (n, s) =>
      let s := if childFailed then markSubtreeFailed s parent else s
      if n > 0 then s else resolveLastChild finalize s parent

/-- Reports a finalised request to its parent, if it has one. -/
def notifyParentOf (s : State) (r : ReqId) (failed : Bool) : State :=
  match (s.req r).parent with
  | none => s
  | some p => notifyParentWith finalize s r p failed

/-- The body of `finalizeRequestCompletion`. -/
def completionBody (s : State) (r : ReqId) : State :=
  let q := s.req r
  if q.desFinalized then s
  else if q.asyncAttemptAbandoned then
    (closeRequest s r .completed "").finalizeRequest env r
  else if q.status = .failed then
    (s.update r fun q =>
      { q with desFinalized := true
               completionTime := some (q.completionTime.getD s.now) }).finalizeRequest env r
  else
    let s := closeRequest s r .completed ""
    if q.asyncOpTimedOut && q.downstreamAsync then
      (s.observe (.breaker r false)).observe (.completedAfterAsyncTimeout r)
    else
      let s :=
        if q.syncWaitTimedOut then
          if q.callerSyncResolved then s else s.observe (.breaker r false)
        else (recordTotalLatency s r).observe (.breaker r true)
      (notifyParentOf finalize s r false).finalizeRequest env r

/-- The body of `finalizeRequestFailure`. -/
def failureBody (s : State) (r : ReqId) (reason : String) : State :=
  if (s.req r).desFinalized then s
  else
    let s := closeRequest s r .failed reason
    let s := recordFailureSamples (recordTotalLatency s r) r reason
    let s := s.observe (.breaker r false)
    (notifyParentOf finalize s r true).finalizeRequest env r

end Cascade

/-- Finalises a request and, while it is the last child of a waiting parent, its ancestors. -/
def finalizeChain (env : Env) : Nat → State → ReqId → Outcome → State
  | 0, s, _, _ => s
  | bound + 1, s, r, .completion => completionBody env (finalizeChain env bound) s r
  | bound + 1, s, r, .failure reason => failureBody env (finalizeChain env bound) s r reason

/-- Marks a request completed and propagates to its synchronous parent. -/
def finalizeRequestCompletion (env : Env) (s : State) (r : ReqId) : State :=
  finalizeChain env (r + 1) s r .completion

/-- Marks a request failed and propagates to its synchronous parent. -/
def finalizeRequestFailure (env : Env) (s : State) (r : ReqId) (reason : String) : State :=
  finalizeChain env (r + 1) s r (.failure reason)

/-- Reports a resolved child to its synchronous parent. -/
def notifyParentSyncChildResolved (env : Env) (s : State) (child parent : ReqId)
    (childFailed : Bool) : State :=
  notifyParentWith (finalizeChain env (parent + 1)) s child parent childFailed

/-- The caller's CPU for an edge could not be allocated: its logical call fails without a child. -/
def propagateSyncPendingFromCallerOverheadFailure (env : Env) (s : State) (d : SpawnData) : State :=
  if d.isAsync then s
  else
    match decrementPendingSync s d.parent d.call with
    | none => s
    | some (n, s) =>
      let s := s.update d.parent fun q => { q with subtreeFailed := true }
      if n > 0 then s else finalizeRequestFailure env s d.parent "downstream_failure"

/-- A downstream child failed before its local work. -/
def propagateSyncChildFailureFromStartFailure (env : Env) (s : State) (r : ReqId) : State :=
  match (s.req r).parent with
  | none => s
  | some p =>
    if (s.req r).downstreamAsync then s
    else if (s.req r).callerSyncResolved then s
    else
      let s := s.update r fun q => { q with callerSyncResolved := true }
      match decrementPendingSync s p (s.req r).call with
      | none => s
      | some (n, s) =>
        let s := markSubtreeFailed s p
        if n > 0 then s
        else if s.run.knows p then finalizeRequestFailure env s p "downstream_failure"
        else s.observe (.parentUnknown p)

end SimCore.Simd
