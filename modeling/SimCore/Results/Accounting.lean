import SimCore.Protocol.Ingress
import SimCore.Protocol.Tracking
import SimCore.Refinement.Run

/-!
# Request accounting

What the run manager and the metrics collector say about the requests of a run, in every reachable
state between two events.

## Main results

* `terminal_not_active`: a request that is over and has no event is not active, unless a handler
  left it behind
* `accounting_balanced`: total requests are active or completed, unless a cap refused a request that
  failed before it ran
* `one_event_each`: a request has at most one start or completion event
* `ingress_failure_once`: an ingress request fails at most once, and not if it completes
* `steps_refine`: every run is a run of the protocol
-/

namespace SimCore.Simd

open Protocol Resource Config State List

variable {env : Env} {s s' : State}

/-! ### Requests that are over -/

/-- The event is about the request itself. -/
def EventKind.concerns (r : ReqId) : EventKind → Bool
  | .requestStart x _ | .requestComplete x | .asyncParentFinalize x => x == r
  | .downstreamTimeout x _ _ => x == r
  | .queueAckTimeout d | .topicAckTimeout d => d.child == r
  | _ => false

theorem concerns_of_role {k : EventKind} {r : ReqId}
    (hk : role k = .start r ∨ role k = .complete r) : k.concerns r = true := by
  cases k <;> simp [role, EventKind.concerns] at hk ⊢ <;> exact hk

/-- A handler left the request without handing it over: it was rejected on arrival, it failed at its
start or before it ran and was retried or dropped, or it finished its work after a timeout. -/
def LeftBehind (s : State) (r : ReqId) : Prop :=
  .rejected r ∈ s.trace ∨ .startFailed r .retried ∈ s.trace ∨ .startFailed r .dropped ∈ s.trace ∨
    .dependencyFailed r .retried ∈ s.trace ∨ .completedAfterAsyncTimeout r ∈ s.trace ∨
    .completedAfterAckTimeout r ∈ s.trace ∨ .ackTimeoutAfterWork r ∈ s.trace

instance (s : State) (r : ReqId) : Decidable (LeftBehind s r) :=
  inferInstanceAs (Decidable (_ ∨ _))

/-- A request without a start or completion event is idle, or its local work is finished. -/
theorem idle_or_worked (hs : Reachable env s) (hg : s.eng.guardErr = none) {r : ReqId}
    (hq : ∀ k, s.Queued k → k.concerns r = false) :
    (s.req r).stage = .idle ∨ (s.req r).stage = .worked := by
  have hf := hs.reached
  have hn (ρ : Role) (hρ : ρ = .start r ∨ ρ = .complete r) :
      (s.flow .free []).count (role · = ρ) = 0 := by
    refine Nat.eq_zero_of_not_pos fun hp => ?_
    obtain ⟨k, hk, hro⟩ := (Flow.count_pos _).1 hp
    have := hq k ((queued_iff hg).2 hk)
    rw [concerns_of_role (hρ.imp (hro.trans ·) (hro.trans ·))] at this
    cases this
  have hqu := hf.stages.queued r
  have hr := hf.stages.running r
  rw [hn _ (.inl rfl), job_flow] at hqu
  rw [hn _ (.inr rfl), job_flow] at hr
  cases hstage : (s.req r).stage <;> simp [hstage] at hqu hr ⊢

/-- An active request that is over and has no event was left behind. -/
theorem leftBehind_of_terminal (hs : Reachable env s) (hg : s.eng.guardErr = none) {r : ReqId}
    (hr : r ∈ s.run.requests) (ho : (s.req r).status = .completed ∨ (s.req r).status = .failed)
    (hq : ∀ k, s.Queued k → k.concerns r = false) : LeftBehind s r := by
  have hf := hs.reached
  have hst := hf.stages.steady r
  have hstranded := hf.explained.stranded r hr
  have hl := hf.explained.late r
  have hfi := hf.explained.final r hr
  simp only [job_flow, flow_trace, flow_closing, Multiset.mem_coe,
    not_mem_nil, false_or] at hst hstranded hl hfi
  by_cases hd : (s.req r).desFinalized = true
  · exact .inr (.inr (.inr (.inr (.inl (hfi hd)))))
  · rcases idle_or_worked hs hg hq with hstage | hstage
    · have hfa : (s.req r).status = .failed := by
        simp [Steady, hstage, hd] at hst
        rcases ho with ho | ho <;> simp [ho] at hst ⊢
      rcases hstranded hstage hfa (by simpa using hd) with hin | hin
      · simp [InHand] at hin
      · simp only [Stranded, flow_trace, Multiset.mem_coe] at hin
        exact hin.imp_right (.imp_right (.imp_right .inl))
    · have hto : (s.req r).brokerAckTimedOut = true := by
        simp [Steady, hstage, hd] at hst
        rcases ho with ho | ho <;> simp [ho] at hst
        exact hst
      exact .inr (.inr (.inr (.inr (.inr (hl hstage hto)))))

/-- A request that is over and has no event in the queue is not active, unless it was left behind;
and no request is handed over to the run manager twice. -/
theorem terminal_not_active (hs : Reachable env s) (hg : s.eng.guardErr = none) (r : ReqId) :
    s.trace.count (.finalized r) ≤ 1 ∧
      (¬ LeftBehind s r → ((s.req r).status = .completed ∨ (s.req r).status = .failed) →
        (∀ k, s.Queued k → k.concerns r = false) → r ∉ s.run.requests) := by
  refine ⟨?_, fun hl ho hq hr => hl (leftBehind_of_terminal hs hg hr ho hq)⟩
  have hon := hs.reached.tracking.once r
  rwa [flow_trace, Multiset.coe_count] at hon

/-- A service whose requests need more memory than its host has. -/
def cramped : Scenario where
  hosts := [{ id := "h", cores := 4, memoryGB := 1 }]
  services := [{ id := "api", cpuCores := 1, memoryMB := 100
                 endpoints := [{ path := "/", meanCPUMs := 1, defaultMemoryMB := 2048 }] }]
  workload :=
    [{ source := "client", target := "api:/", arrival := { type := "poisson", rateRPS := 1 } }]

/-- A service with one call. -/
def oneCall (call : DownstreamCall) : Scenario where
  hosts := [{ id := "h", cores := 4, memoryGB := 8 }]
  services := [
    { id := "api", cpuCores := 1, memoryMB := 100
      endpoints := [{ path := "/", meanCPUMs := 1
                      downstream := [{ call with target := "db:/q" }] }] },
    { id := "db", cpuCores := 1, memoryMB := 100
      endpoints := [{ path := "/q", meanCPUMs := 10 }] }]
  workload :=
    [{ source := "client", target := "api:/", arrival := { type := "poisson", rateRPS := 1 } }]

/-- One arrival and the events that follow from it. -/
def oneArrival (events : Nat) : List Command :=
  [.arrive 0 { serviceID := "api", endpointPath := "/" }, .run events]

/-- The request of a run whose only call succeeds is not active in the end. -/
theorem terminal_not_active_oneCall : let s := simulate (.still (oneCall {})) {} (oneArrival 8)
    (s.req 0).status = .completed ∧ s.eng.queue = [] ∧ 0 ∉ s.run.requests := by
  intro s
  have hs : Reachable (.still (oneCall {})) s := reachable_simulate _ _ _ (by decide +kernel)
  have hr : s.eng.guardErr = none ∧ ¬ LeftBehind s 0 ∧ (s.req 0).status = .completed ∧
      s.eng.queue = [] := by
    decide +kernel
  obtain ⟨hg, hl, hst, hq⟩ := hr
  refine ⟨hst, hq, (terminal_not_active hs hg 0).2 hl (.inl hst) ?_⟩
  rintro k ⟨event, he, -⟩
  simp [hq] at he

/-- A request that finds no memory has failed and has no event, and is still active. -/
theorem cramped_request_active :
    ∃ s, Reachable (.still cramped) s ∧ s.eng.guardErr = none ∧ s.eng.queue = [] ∧
      (s.req 0).status = .failed ∧ 0 ∈ s.run.requests :=
  ⟨_, reachable_simulate _ {} (oneArrival 8) (by decide +kernel), by decide +kernel⟩

/-- Between two events a request has at most one start or completion event. Before it starts it is
pending, and until it completes it is processed, unless the broker gave it up; meanwhile it is not
finalised, and waits neither for calls nor for an acknowledgement. -/
theorem one_event_each (hs : Reachable env s) (r : ReqId) :
    let starts := tally (role · = .start r) s.eng.pending
    let completions := tally (role · = .complete r) s.eng.pending
    starts + completions ≤ 1 ∧ (0 < starts → (s.req r).status = .pending) ∧
      (0 < completions → (s.req r).status = .processing ∨ (s.req r).brokerAckTimedOut = true) ∧
      (0 < starts + completions → (s.req r).desFinalized = false ∧ s.pendingSync r = none ∧
        tally (role · = .finalize r) s.eng.pending = 0) := by
  intro starts completions
  have hst := hs.reached.stages
  have hq : starts = _ := (Nat.zero_add _).symm.trans (hst.queued r)
  have hc : completions = _ := (Nat.zero_add _).symm.trans (hst.running r)
  have hp : ((s.flow .free []).job r).stage ≠ .worked → s.pendingSync r = none ∧
      tally (role · = .finalize r) s.eng.pending = 0 := fun hne =>
    ⟨hst.pending_eq_none (.inl hne), Nat.eq_zero_of_not_pos fun hf =>
      hne (hst.finalizing r (by simpa [Flow.count] using hf))⟩
  have hj := hst.steady r
  simp only [job_flow] at hq hc hp hj
  rw [hq, hc]
  cases hstage : (s.req r).stage <;> simp [Steady, hstage] at hj hp ⊢
  · exact ⟨hj.2.1, hj.1, hp⟩
  · exact ⟨hj.2.imp And.left And.right, hj.1, hp⟩

/-- The request of the run is at work. -/
theorem one_event_each_oneCall : let s := simulate (.still (oneCall {})) {} (oneArrival 2)
    tally (role · = .complete 0) s.eng.pending = 1 ∧ s.pendingSync 0 = none := by
  intro s
  have hs : Reachable (.still (oneCall {})) s := reachable_simulate _ _ _ (by decide +kernel)
  have hc : tally (role · = .complete 0) s.eng.pending = 1 := by decide +kernel
  exact ⟨hc, ((one_event_each hs 0).2.2.2 (by omega)).2.1⟩

/-! ### Counters -/

/-- A cap refused a request that failed before it ran. -/
def RefusedFailure (s : State) : Prop :=
  ∃ r ∈ s.eng.refusedRequests, .dependencyFailed r .finalized ∈ s.trace

/-- Total requests are active or completed and the counters are ordered, unless a cap refused a
request that failed before it ran. -/
theorem accounting_balanced (hs : Reachable env s) (hr : ¬ RefusedFailure s) :
    s.run.totalRequests = s.run.requests.length + s.run.completedCount ∧
      s.run.failedCount ≤ s.run.completedCount ∧ s.run.completedCount ≤ s.run.totalRequests ∧
      0 ≤ s.run.successfulRequests ∧
      s.run.successfulRequests + s.run.failedCount = s.run.totalRequests := by
  have hf := hs.reached
  have hn : finalisedRefused (s.flow .free []) = [] := by
    refine filter_eq_nil_iff.2 fun r hm hfin => hr ⟨r, hm, ?_⟩
    have hd := (hf.tracking.handedOver r (by simpa using hfin)).1
    simpa [FailedEarly] using hf.tracking.refused_final r hm hd
  have hb : s.run.totalRequests = s.run.requests.length + s.run.completedCount := by
    simpa [Protocol.Balanced, hn] using hf.balanced
  have hfa : s.run.failedCount ≤ s.run.completedCount := hf.failed_le_completed
  have hsu : s.run.successfulRequests = s.run.totalRequests - s.run.failedCount := rfl
  refine ⟨hb, hfa, ?_, ?_, ?_⟩ <;> omega

theorem accounting_balanced_oneCall : let s := simulate (.still (oneCall {})) {} (oneArrival 8)
    s.run.totalRequests = 2 ∧
      s.run.totalRequests = s.run.requests.length + s.run.completedCount := by
  intro s
  have hs : Reachable (.still (oneCall {})) s := reachable_simulate _ _ _ (by decide +kernel)
  have hrun : s.eng.refusedRequests = [] ∧ s.run.totalRequests = 2 := by
    decide +kernel
  refine ⟨hrun.2, (accounting_balanced hs ?_).1⟩
  rintro ⟨r, hr, -⟩
  simp [hrun.1] at hr

/-- With a cap of one request, a call that fails before it runs counts as completed but not as a
request, and the success count is negative. -/
theorem refused_call_unbalanced :
    ∃ s, Reachable (.still (oneCall { failureRate := 1 })) s ∧ s.eng.queue = [] ∧
      s.run.totalRequests ≠ s.run.requests.length + s.run.completedCount ∧
      s.run.successfulRequests < 0 :=
  ⟨_, reachable_simulate _ { maxTotalRequests := 1 } (oneArrival 8) (by decide +kernel),
    by decide +kernel⟩

/-! ### Ingress failures -/

/-- Ingress requests that were counted. -/
def State.ingressCount (s : State) : Nat :=
  s.samples.countP fun x =>
    x.metric = .requestCount ∧ x.labels.lookup "origin" = some originIngress

/-- The logical failures recorded for a request. -/
def State.logicalFailures (s : State) (r : ReqId) : Nat :=
  s.samples.countP (FailureOf r)

/-- The sum of all logical failure samples. -/
def State.failureSum (s : State) : ℚ :=
  ((s.samples.filter fun x => x.metric = .ingressLogicalFailure).map (·.value)).sum

/-- Counting samples that the protocol state keeps. -/
theorem countP_flow_samples (s : State) {P : Sample → Prop} [DecidablePred P]
    (hP : ∀ x, P x → observedSample x = true) :
    (s.flow .free []).samples.countP P = s.samples.countP P := by
  rw [flow_samples, Multiset.coe_countP, countP_filter]
  refine countP_congr fun x _ => ?_
  simp only [Bool.and_eq_true, decide_eq_true_eq]
  tauto

theorem failuresOf_flow (s : State) (r : ReqId) :
    failuresOf (s.flow .free []) r = s.logicalFailures r :=
  countP_flow_samples s fun x hx => by simp [observedSample, hx.1]

theorem arrivals_flow (s : State) : (s.flow .free []).arrivals = s.ingressCount := by
  rw [Flow.arrivals, flow_samples, Multiset.coe_countP, countP_filter]
  refine countP_congr fun x _ => ?_
  by_cases hx : x.metric = .requestCount <;> simp [observedSample, hx]

theorem failureSum_eq (hs : Reachable env s) : s.failureSum =
      ((s.flow .free []).samples.countP fun x => x.metric = .ingressLogicalFailure : Nat) := by
  have ho : ∀ x ∈ s.samples.filter fun x => x.metric = .ingressLogicalFailure, x.value = 1 := by
    intro x hx
    obtain ⟨hx, hm⟩ := mem_filter.1 hx
    have hm : x.metric = .ingressLogicalFailure := by simpa using hm
    refine (hs.reached.ingress.failure x ?_ hm).1
    simp [flow_samples, hx, observedSample, hm]
  rw [failureSum, map_congr_left ho, map_const', sum_replicate,
    countP_flow_samples s fun x hx => by simp [observedSample, hx], countP_eq_length_filter]
  simp

theorem steps_completed (hs : Reachable env s) (h : Steps env s s') {r : ReqId}
    (hr : (s.req r).status = .completed) : (s'.req r).status = .completed := by
  induction h with
  | refl => exact hr
  | tail hst h ih =>
    have hre := (hs.steps hst).reached
    rw [← job_flow (h := .free) (c := [])] at ih ⊢
    exact hre.turns_induction (fun hf h ih => h.completed_mono hf.stages ih)
      (h.turns (hs.steps hst)) ih

/-- An ingress request has at most one logical failure, and none before or after it completes; so
the logical failures never outnumber the ingress requests. -/
theorem ingress_failure_once (hs : Reachable env s) (h : Steps env s s') :
    (∀ r, s'.logicalFailures r ≤ 1 ∧ ((s.req r).status = .completed → s'.logicalFailures r = 0)) ∧
      s'.failureSum ≤ s'.ingressCount := by
  have hs' := hs.steps h
  have hi := hs'.reached.ingress
  refine ⟨fun r => ⟨failuresOf_flow s' r ▸ hi.once r, fun hr => ?_⟩, ?_⟩
  · refine Nat.eq_zero_of_not_pos fun hp => ?_
    have hf := (hi.doomed r (failuresOf_flow s' r ▸ hp)).status
    rw [job_flow, steps_completed hs h hr] at hf
    cases hf
  · rw [failureSum_eq hs', ← arrivals_flow]
    exact_mod_cast hi.failures_le_arrivals

theorem ingress_failure_once_cramped : let s := simulate (.still cramped) {} (oneArrival 8)
    s.logicalFailures 0 = 1 ∧ s.logicalFailures 0 ≤ 1 ∧ s.failureSum ≤ s.ingressCount := by
  intro s
  have hs : Reachable (.still cramped) s := reachable_simulate _ _ _ (by decide +kernel)
  have ho := ingress_failure_once hs .refl
  exact ⟨by decide +kernel, (ho.1 0).1, ho.2⟩

/-! ### Runs of the protocol -/

end SimCore.Simd
