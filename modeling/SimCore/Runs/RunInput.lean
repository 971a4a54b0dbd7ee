import SimCore.Base.Text

/-!
# Inputs of runs

What a client asks for when it creates a run: a scenario, how long to simulate, and the settings of
an optimization. The server completes the settings of an online optimization with its own defaults
and caps before it stores them.

## Main definitions

* `OptimizationConfig`, `RunInput`: the settings that the server reads
* `OptimizationConfig.primary`: the signal that drives the online controller
* `validateOnlineOptimizationConfig`, `prepareOnlineRunInput`: the checks of an online optimization
-/

namespace SimCore.Runs

structure OptimizationConfig where
  online : Bool := false
  stepSize : ℚ := 0
  targetP95LatencyMs : ℚ := 0
  controlIntervalMs : Int := 0
  minHosts : Int := 0
  maxHosts : Int := 0
  scaleDownCpuUtilMax : ℚ := 0
  scaleDownMemUtilMax : ℚ := 0
  optimizationTargetPrimary : String := ""
  targetUtilHigh : ℚ := 0
  targetUtilLow : ℚ := 0
  scaleDownHostCpuUtilMax : ℚ := 0
  minReplicasPerService : Int := 0
  minCpuCoresPerInstance : ℚ := 0
  minMemoryMbPerInstance : ℚ := 0
  scaleDownStabilizationWindowMs : Int := 0
  scaleDownCooldownMs : Int := 0
  memoryDownsizeHeadroomMb : ℚ := 0
  scaleDownHostMemUtilMax : ℚ := 0
  maxControllerSteps : Int := 0
  maxOnlineDurationMs : Int := 0
  allowUnboundedOnline : Bool := false
  maxNoopIntervals : Int := 0
  leaseTtlMs : Int := 0
deriving DecidableEq

/-- What a client asks for. -/
structure RunInput where
  scenarioYaml : String := ""
  durationMs : Int := 0
  callbackUrl : String := ""
  optimization : Option OptimizationConfig := none
deriving DecidableEq

/-- The signal that drives the online controller. -/
inductive PrimaryTarget where
  | p95Latency
  | cpuUtilization
  | memoryUtilization
  /-- An unknown word; the controller treats it like the latency, except that it needs no target. -/
  | other
deriving DecidableEq

/-- The signal that drives the online controller; the latency if none is given. -/
def OptimizationConfig.primary (opt : OptimizationConfig) : PrimaryTarget :=
  match normWord opt.optimizationTargetPrimary with
  | "" => .p95Latency
  | "p95_latency" => .p95Latency
  | "cpu_utilization" => .cpuUtilization
  | "memory_utilization" => .memoryUtilization
  | _ => .other

/-- Rejects an online optimization that is driven by the latency and has no target for it. -/
def validateOnlineOptimizationConfig (opt : OptimizationConfig) : Option String :=
  if opt.online ∧ opt.primary = .p95Latency ∧ opt.targetP95LatencyMs ≤ 0 then
    some "online optimization with primary target p95_latency requires target_p95_latency_ms > 0"
  else none

/-- Caps and defaults of the server for online optimizations. Durations are in nanoseconds; zero
disables a cap. -/
structure OnlineRunLimits where
  serverMaxOnlineDuration : Int := 30 * 60 * second
  serverMaxControllerSteps : Int := 0
  maxConcurrentOnlineRuns : Int := 0
  defaultMaxOnlineDuration : Int := 10 * 60 * second
  heartbeatRequiredAfterDuration : Int := 10 * 60 * second
deriving DecidableEq

/-- `d.Milliseconds()`. -/
def milliseconds (d : Int) : Int :=
  Int.tdiv d millisecond

/-- The largest 32-bit integer. -/
def maxInt32 : Int := 2147483647

/-- The wall-clock limit of an online run: the default if the client gives none, within the cap of
the server. -/
def effectiveOnlineDuration (limits : OnlineRunLimits) (opt : OptimizationConfig) : Int :=
  let maxDurMs :=
    if !opt.allowUnboundedOnline && opt.maxOnlineDurationMs == 0 then
      milliseconds limits.defaultMaxOnlineDuration
    else opt.maxOnlineDurationMs
  if limits.serverMaxOnlineDuration > 0 ∧ maxDurMs > 0 ∧
      maxDurMs > milliseconds limits.serverMaxOnlineDuration then
    milliseconds limits.serverMaxOnlineDuration
  else maxDurMs

/-- The settings of an online optimization with the defaults and caps of the server. -/
def prepareOnlineOptimization (limits : OnlineRunLimits) (opt : OptimizationConfig) :
    Except String OptimizationConfig :=
  let intervalMs := if opt.controlIntervalMs ≤ 0 then 1000 else opt.controlIntervalMs
  let maxDurMs := effectiveOnlineDuration limits opt
  if maxDurMs > milliseconds limits.heartbeatRequiredAfterDuration ∧
      opt.allowUnboundedOnline = false ∧ opt.leaseTtlMs ≤ 0 then
    .error "lease_ttl_ms is required when max_online_duration_ms exceeds the heartbeat threshold"
  else
    let steps :=
      if opt.maxControllerSteps = 0 ∧ maxDurMs > 0 then
        min (max (Int.tdiv (wrapInt64 (maxDurMs + intervalMs - 1)) intervalMs) 1) maxInt32
      else opt.maxControllerSteps
    let steps :=
      if limits.serverMaxControllerSteps > 0 ∧ steps > limits.serverMaxControllerSteps then
        limits.serverMaxControllerSteps
      else steps
    let noop :=
      if opt.maxNoopIntervals = 0 then
        if opt.allowUnboundedOnline = true ∧ maxDurMs = 0 then -1
        else min (max (Int.tdiv (wrapInt64 (60 * 1000 + intervalMs - 1)) intervalMs) 20) maxInt32
      else opt.maxNoopIntervals
    .ok { opt with
      controlIntervalMs := intervalMs, maxOnlineDurationMs := maxDurMs
      maxControllerSteps := steps, maxNoopIntervals := noop }

/-- The input of a run with the defaults and caps of the server. -/
def prepareOnlineRunInput (limits : OnlineRunLimits) (input : RunInput) : Except String RunInput :=
  match input.optimization with
  | some opt =>
    if opt.online then
      (prepareOnlineOptimization limits opt).map fun opt => { input with optimization := some opt }
    else .ok input
  | none => .ok input

end SimCore.Runs
