import SimCore.Engine.EventLoop

/-!
# The run manager

The run manager tracks the requests of a run: the active ones, a bounded sample of the finalised
ones, and three counters. Requests are named by their position in the run's request list; two
requests never share a name. A request that a cap refuses is neither tracked nor counted, and the
cap's callback stops the run.

## Main definitions

* `RunManager.addRequest`, `RunManager.finalizeRequest`, `RunManager.knows`
* `RunManager.successfulRequests`: the success count of the final metrics
-/

namespace SimCore

/-- Names of requests: positions in the list of all requests created so far. -/
abbrev ReqId := Nat

/-- Requests and counters of a run. -/
structure RunManager where
  requests : List ReqId := []
  completedRequests : List ReqId := []
  completedOrder : List ReqId := []
  totalRequests : Nat := 0
  completedCount : Nat := 0
  failedCount : Nat := 0
  maxActiveRequests : Int := 0
  maxTotalRequests : Int := 0
  maxCompletedKeep : Nat := 1000
deriving DecidableEq

namespace RunManager

/-- The limit that refuses one more request, if any: total requests first, then active ones. -/
def refusal (rm : RunManager) : Option LimitExceeded :=
  if rm.maxTotalRequests > 0 ∧ (rm.totalRequests : Int) ≥ rm.maxTotalRequests then
    some ⟨"max_total_requests", rm.totalRequests + 1, rm.maxTotalRequests⟩
  else if rm.maxActiveRequests > 0 ∧ (rm.requests.length : Int) ≥ rm.maxActiveRequests then
    some ⟨"max_requests_tracked", rm.requests.length + 1, rm.maxActiveRequests⟩
  else
    none

/-- Adds a request to the run, unless a cap refuses it. -/
def addRequest (rm : RunManager) (r : ReqId) : RunManager :=
  match rm.refusal with
  | some _ => rm
  | none =>
    { rm with requests := if r ∈ rm.requests then rm.requests else r :: rm.requests
              totalRequests := rm.totalRequests + 1 }

/-- Whether `GetRequest` finds the request, active or retained. -/
def knows (rm : RunManager) (r : ReqId) : Bool :=
  decide (r ∈ rm.requests) || decide (r ∈ rm.completedRequests)

/-- Drops the oldest retained requests beyond the retention limit. -/
def evict (rm : RunManager) : RunManager :=
  let excess := rm.completedOrder.length - rm.maxCompletedKeep
  { rm with completedOrder := rm.completedOrder.drop excess
            completedRequests :=
              rm.completedRequests.filter fun r => r ∉ rm.completedOrder.take excess }

/-- Moves a terminal request out of the active requests; a sampled one is retained. -/
def finalizeRequest (rm : RunManager) (r : ReqId) (failed sampled : Bool) : RunManager :=
  let rm := { rm with requests := rm.requests.filter (· ≠ r)
                      completedCount := rm.completedCount + 1
                      failedCount := if failed then rm.failedCount + 1 else rm.failedCount }
  if sampled then
    evict { rm with
      completedRequests :=
        if r ∈ rm.completedRequests then rm.completedRequests else r :: rm.completedRequests
      completedOrder := rm.completedOrder ++ [r] }
  else rm

/-- `SuccessfulRequests` of the final metrics. -/
def successfulRequests (rm : RunManager) : Int :=
  rm.totalRequests - rm.failedCount

/-! ### What the operations do to the active requests and the counters -/

section Lemmas

variable (rm : RunManager) (r x : ReqId) (failed sampled : Bool)

theorem mem_requests_addRequest : x ∈ (rm.addRequest r).requests ↔
    x ∈ rm.requests ∨ x = r ∧ rm.refusal = none := by
  unfold addRequest
  cases rm.refusal with
  | some => simp
  | none =>
    by_cases hr : r ∈ rm.requests
    · simp [hr]
      rintro rfl
      exact hr
    · simp [hr, or_comm]

theorem nodup_requests_addRequest (h : rm.requests.Nodup) : (rm.addRequest r).requests.Nodup := by
  unfold addRequest
  cases rm.refusal with
  | some => exact h
  | none =>
    by_cases hr : r ∈ rm.requests
    · simpa [hr] using h
    · simpa [hr] using h

theorem addRequest_counts (hr : r ∉ rm.requests) :
    (rm.addRequest r).totalRequests + rm.requests.length =
      rm.totalRequests + (rm.addRequest r).requests.length := by
  unfold addRequest
  cases rm.refusal with
  | some => rfl
  | none =>
    simp [hr]
    omega

@[simp] theorem addRequest_completedCount :
    (rm.addRequest r).completedCount = rm.completedCount := by
  unfold addRequest
  cases rm.refusal <;> rfl

@[simp] theorem addRequest_failedCount : (rm.addRequest r).failedCount = rm.failedCount := by
  unfold addRequest
  cases rm.refusal <;> rfl

@[simp] theorem finalizeRequest_requests :
    (rm.finalizeRequest r failed sampled).requests = rm.requests.filter (· ≠ r) := by
  cases sampled <;> rfl

@[simp] theorem finalizeRequest_totalRequests :
    (rm.finalizeRequest r failed sampled).totalRequests = rm.totalRequests := by
  cases sampled <;> rfl

@[simp] theorem finalizeRequest_completedCount :
    (rm.finalizeRequest r failed sampled).completedCount = rm.completedCount + 1 := by
  cases sampled <;> rfl

@[simp] theorem finalizeRequest_failedCount : (rm.finalizeRequest r failed sampled).failedCount =
      rm.failedCount + if failed then 1 else 0 := by
  cases sampled <;> cases failed <;> rfl

theorem knows_of_mem (h : r ∈ rm.requests) : rm.knows r = true := by
  simp [knows, h]

end Lemmas

end RunManager

end SimCore
