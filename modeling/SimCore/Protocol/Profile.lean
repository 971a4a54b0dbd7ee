import SimCore.Protocol.Stages

/-!
# The execution profile of a request

A start draws the execution profile of a request and reserves CPU time for it. A start that a busy
instance defers is handled twice, and draws again.

## Main definitions

* `Profiled`: the profile was drawn once, and the CPU interval is as long as the CPU work takes

## Main results

* `Reached.draws`: a request that runs and was not deferred has drawn its profile once
-/

namespace SimCore.Protocol

open Simd Resource

variable {env : Env} {f f' : Flow}

/-- A request that has not been started has not drawn its profile. -/
def Undrawn (j : Job) : Prop :=
  j.profileDraws = 0 ∧ j.cacheHit = false ∧ j.cacheMiss = false ∧ j.cpuDeferred = none

/-- The profile was drawn once, and the CPU interval is as long as the CPU work takes. -/
structure Profiled (j : Job) : Prop where
  draws : j.profileDraws = 1
  cache : ¬ (j.cacheHit = true ∧ j.cacheMiss = true)
  interval : ∃ cpuMs res, j.allocatedCPUMs = some cpuMs ∧ j.reservation = some res ∧
    res.finish - res.start = ServiceInstance.cpuServiceTime res.cores cpuMs

/-- What a request that was never deferred has drawn. -/
def Draws (j : Job) : Prop :=
  match j.stage with
  | .queued => Undrawn j
  | .running | .worked => Profiled j
  | .idle => True

/-- A start that uses the interval it has just reserved draws the profile of its request. -/
theorem Undrawn.begun {j : Job} (hj : Undrawn j) {i : String} {cache : Option Bool} {cpuMs mb : ℚ}
    {fresh : Option Reservation} {x : ReqId} (hx : f.job x = j) (ha : f.Admits x cpuMs fresh) :
    Profiled { j.begun i cache fresh with
      stage := .running, status := .processing, allocatedCPUMs := some cpuMs
      allocatedMemoryMB := some mb } := by
  obtain ⟨hdr, hh, hm, hde⟩ := hj
  cases ha with
  | fresh res _ _ hc =>
    refine ⟨by simp [hdr], ?_, cpuMs, res, rfl, rfl, by rw [hc]; ring⟩
    cases cache with
    | none => simp [hh]
    | some b => cases b <;> simp [hh, hm]
  | deferred _ hd =>
    rw [hx, hde] at hd
    cases hd

theorem Turn.draws (h : Turn env f f') (hs : Shape env f) (hst : Stages f) {x : ReqId}
    (hx : .startDeferred x ∉ f.trace → Draws (f.job x)) (hx' : .startDeferred x ∉ f'.trace) :
    Draws (f'.job x) := by
  have hold := hx fun ho => hx' (h.mem_trace ho)
  rcases lt_or_ge x f.size with hlt | hge
  · have hstep := h.jobStep hs hlt
    generalize f'.job x = j at hstep
    cases hstep with
    | startDefer _ _ _ _ _ _ _ _ ho => exact absurd ho hx'
    | startRun _ _ _ _ _ _ hh ha =>
      have hstage := hst.of_start hh
      simp only [Draws, hstage] at hold
      exact hold.begun rfl ha
    | startLost | startFail | startRefuse => trivial
    | complete _ hh =>
      have hstage := hst.of_complete hh
      simp only [Draws, hstage] at hold
      exact ⟨hold.draws, hold.cache, hold.interval⟩
    | _ =>
      -- neither the stage nor the profile changes
      unfold Draws at hold ⊢
      split at hold <;> simp_all [Undrawn] <;> exact ⟨hold.draws, hold.cache, hold.interval⟩
  · rcases h.newJob hge with hj | ⟨-, hj⟩
    · rw [hj]
      trivial
    · generalize f'.job x = j at hj
      cases hj <;> simp [Draws, Undrawn, SpawnCore.job, consumerJob]

/-- A request that runs and was not deferred has drawn its profile once. -/
theorem Reached.draws (h : Reached env f) {r : ReqId} (hr : .startDeferred r ∉ f.trace) :
    Draws (f.job r) := by
  induction h with
  | start h => simp [h.jobs, Draws, default, instInhabitedJob.default]
  | turn hf h ih => exact h.draws hf.shape hf.stages ih hr

end SimCore.Protocol
