import SimCore.Base.KeyMap
import SimCore.Simd.Run
import SimCore.Workload.Pattern

/-!
# The workload generator

The generator keeps the state of every workload pattern under the key `from:to`. It schedules
arrivals into the event queue up to a horizon: in standard mode at the start and at every
`WorkloadGenerate` event, in real-time mode at the start and at every tick of a timer. A run can
update the rate of a pattern or the whole pattern.

The loops over the arrivals of a pattern have no bound in the source; they are given a number of
turns here, and report `Halt.unfinished` if it does not suffice.

The generator never reads `ranges`, `startTime`, `covered` and `log`. They record how often it has
iterated over the patterns, when it was started, the horizon of the last generation, and the
arrivals scheduled so far, the latest first.

## Main definitions

* `WorkloadState`, `Simulation`: the generator, and a run with its generator
* `start`: initialises the patterns and generates the first arrivals
* `generateUpToHorizon`, `handleWorkloadGenerate`: generation in standard mode
* `generateNextEvents`: generation in real-time mode
* `updateRate`, `updatePattern`: runtime updates
-/

namespace SimCore.Workload

open Config Interaction Simd

structure WorkloadState where
  patterns : KeyMap String PatternState
  drawn : History
  endTime : Time
  realTimeMode : Bool
  generatedHorizon : Time := 0
  stopped : Bool := false
  ranges : Nat := 0
  startTime : Time
  covered : Time
  log : List (Time × ArrivalData) := []

/-- A run with its workload generator. -/
structure Simulation where
  state : State
  ws : WorkloadState

def patternKey (source target : String) : String :=
  source ++ ":" ++ target

/-- A horizon does not go beyond the end of the run. -/
def capTime (endTime horizon : Time) : Time :=
  if horizon > endTime then endTime else horizon

/-! ### Generation -/

/-- The arrival that a pattern schedules next. -/
def workloadArrivalEventData (key : String) (ps : PatternState) : ArrivalData where
  serviceID := ps.serviceID
  endpointPath := ps.endpointPath
  source := ps.pattern.source
  sourceKind := ps.pattern.sourceKind
  trafficClass := ps.pattern.trafficClass
  metadata := ps.pattern.metadata
  spec := some (key, ps.revisions.length)

/-- Whether the pattern has another arrival before the limit and the end of the run. -/
def PatternState.more (endTime limit : Time) (ps : PatternState) : Bool :=
  ps.nextEventTime < limit && ps.nextEventTime < endTime

/-- Before a generation, a uniform pattern covers the limit. -/
def PatternState.cover (fe : Feed) (endTime limit : Time) (ps : PatternState) (drawn : History) :
    PatternState × History :=
  if ps.uniform && ps.uniformLazy then ensureUniformHorizon fe endTime ps limit drawn
  else (ps, drawn)

/-- What the generation of the arrivals of one pattern works on. -/
structure Batch where
  state : State
  ps : PatternState
  drawn : History
  log : List (Time × ArrivalData)

/-- Schedules the next arrival of the pattern. -/
def Batch.schedule (key : String) (b : Batch) : Batch :=
  let data := workloadArrivalEventData key b.ps
  { b with state := scheduleOutside b.state b.ps.nextEventTime (.requestArrival data)
           log := (b.ps.nextEventTime, data) :: b.log }

/-- The pattern goes on to its next arrival. -/
def Batch.move (b : Batch) (next : Time) (ps : PatternState) (drawn : History) : Batch :=
  { b with ps := { ps with lastEventTime := b.ps.nextEventTime, nextEventTime := next }
           drawn := drawn }

/-- Schedules the arrivals of one pattern. In standard mode a guardrail error ends the whole
generation, which the result tells. -/
def generateLoop (fe : Feed) (standard : Bool) (key : String) (endTime limit : Time) :
    Nat → Batch → Except Halt (Bool × Batch)
  | n, b =>
    if b.ps.more endTime limit then
      match n with
      | 0 => .error .unfinished
      | n + 1 =>
        if standard && (b.schedule key).state.eng.guardErr.isSome then .ok (true, b.schedule key)
        else
          match advanceToNextArrival fe endTime b.ps b.ps.nextEventTime b.drawn with
          | .error halt => .error halt
          | .ok ((next, ps), drawn) =>
            generateLoop fe standard key endTime limit n ((b.schedule key).move next ps drawn)
    else .ok (false, b)

namespace Simulation

/-- What the generation for a pattern starts from. -/
def batch (fe : Feed) (limit : Time) (s : Simulation) (ps : PatternState) : Batch :=
  let (ps, drawn) := ps.cover fe s.ws.endTime limit s.ws.drawn
  ⟨s.state, ps, drawn, s.ws.log⟩

/-- Writes back what the generation for a pattern has done. -/
def store (s : Simulation) (key : String) (b : Batch) : Simulation where
  state := b.state
  ws := { s.ws with patterns := s.ws.patterns.set key { b.ps with revised := none }
                    drawn := b.drawn, log := b.log }

end Simulation

/-- Generates the arrivals of the pattern with the given key. -/
def generatePattern (fe : Feed) (standard : Bool) (fuel : Nat) (limit : Time) (key : String)
    (s : Simulation) : Except Halt (Bool × Simulation) :=
  match s.ws.patterns.get key with
  | none => .ok (false, s)
  | some ps =>
    if !ps.active then .ok (false, s)
    else
      match generateLoop fe standard key s.ws.endTime limit fuel (s.batch fe limit ps) with
      | .error halt => .error halt
      | .ok (halted, b) => .ok (halted, s.store key b)

/-- Generates the arrivals of several patterns. -/
def generateEach (fe : Feed) (standard : Bool) (fuel : Nat) (limit : Time) :
    List String → Simulation → Except Halt Simulation
  | [], s => .ok s
  | key :: keys, s =>
    match generatePattern fe standard fuel limit key s with
    | .error halt => .error halt
    | .ok (halted, s) => if halted then .ok s else generateEach fe standard fuel limit keys s

/-- Generates the arrivals of all patterns up to a limit, in the order of this iteration. -/
def generate (fe : Feed) (standard : Bool) (fuel : Nat) (limit : Time) (s : Simulation) :
    Except Halt Simulation :=
  match generateEach fe standard fuel limit (fe.order s.ws.ranges s.ws.patterns.keys) s with
  | .error halt => .error halt
  | .ok s' => .ok { s' with ws := { s'.ws with ranges := s.ws.ranges + 1, covered := limit } }

/-- Generates arrivals up to a horizon, in standard mode. -/
def generateUpToHorizon (fe : Feed) (fuel : Nat) (horizon : Time) (s : Simulation) :
    Except Halt Simulation :=
  let horizon := capTime s.ws.endTime horizon
  if ¬ s.state.now < s.ws.endTime then .ok s
  else if s.ws.stopped then .ok s
  else generate fe true fuel horizon s

/-- Generates arrivals for the lookahead window, in real-time mode. -/
def generateNextEvents (fe : Feed) (fuel : Nat) (s : Simulation) : Except Halt Simulation :=
  let lookaheadTime := capTime s.ws.endTime (s.state.now + eventGenerationLookaheadWindow)
  if s.state.now > s.ws.endTime then .ok s
  else generate fe false fuel lookaheadTime s

/-- The horizon up to which arrivals have been generated, in standard mode. -/
def Simulation.setHorizon (s : Simulation) (horizon : Time) : Simulation :=
  { s with ws := { s.ws with generatedHorizon := horizon } }

/-- Schedules the next generation, unless the horizon is the end of the run. -/
def scheduleGeneration (horizon : Time) (s : Simulation) : Simulation :=
  if horizon < s.ws.endTime then
    { s with state := scheduleOutside s.state horizon .workloadGenerate }
  else s

/-- The handler of `WorkloadGenerate` events. -/
def handleWorkloadGenerate (fe : Feed) (fuel : Nat) (s : Simulation) : Except Halt Simulation :=
  if s.ws.stopped then .ok s
  else
    let nextHorizon := capTime s.ws.endTime (s.state.now + eventGenerationLookaheadWindow)
    match generateUpToHorizon fe fuel nextHorizon s with
    | .error halt => .error halt
    | .ok s =>
      let horizon :=
        if nextHorizon > s.ws.generatedHorizon then nextHorizon else s.ws.generatedHorizon
      .ok (scheduleGeneration nextHorizon (s.setHorizon horizon))

/-! ### Start -/

/-- How many arrivals a uniform pattern has to have within a duration. -/
def uniformTotal (rateRPS : ℚ) (duration : Int) : Int :=
  let n := toInt64 (roundHalfAway (rateRPS * durationToSeconds duration) : Int)
  if n < 0 then 0 else n

/-- A uniform pattern begins its schedule at a time: it covers the lookahead window, and goes to its
first arrival, or to the end of the run if it has none. -/
def PatternState.begin (fe : Feed) (endTime now : Time) (realTime : Bool) (ps : PatternState)
    (h : History) : PatternState × History :=
  let ps := { ps with
    epoch := now, uniformTimes := [], uniformCursor := 0, uniformLazy := true
    uniformStreamWatermark := now, uniformGlobalCountMode := !realTime
    uniformRemaining := if realTime then 0 else uniformTotal ps.pattern.arrival.rateRPS
      (endTime - now) }
  let (ps, h) := ensureUniformHorizon fe endTime ps (now + eventGenerationLookaheadWindow) h
  match ps.uniformTimes.head? with
  | some first => ({ ps with nextEventTime := first }, h)
  | none => ({ ps.exhausted with nextEventTime := endTime }, h)

/-- The first state of the pattern of a workload row. -/
def initPattern (fe : Feed) (startTime endTime : Time) (realTime : Bool) (row : WorkloadPattern)
    (h : History) : Except Halt (PatternState × History) :=
  match parseDownstreamTarget row.target with
  | .error message => .error (.failed ("invalid workload target " ++ row.target ++ ": " ++ message))
  | .ok (serviceID, endpointPath) =>
    let ps : PatternState :=
      { pattern := row, serviceID := serviceID, endpointPath := endpointPath, epoch := startTime
        lastEventTime := startTime, nextEventTime := 0, uniformGlobalCountMode := !realTime }
    if ps.uniform then .ok (ps.begin fe endTime startTime realTime h)
    else
      match calculateNextArrivalTime fe.source row.arrival startTime startTime h with
      | .error halt => .error halt
      | .ok (first, h) => .ok ({ ps with nextEventTime := first }, h)

/-- The patterns of the workload rows; a row overwrites an earlier one with the same key. -/
def initPatterns (fe : Feed) (startTime endTime : Time) (realTime : Bool) :
    List WorkloadPattern → KeyMap String PatternState → History →
      Except Halt (KeyMap String PatternState × History)
  | [], m, h => .ok (m, h)
  | row :: rows, m, h =>
    match initPattern fe startTime endTime realTime row h with
    | .error halt => .error halt
    | .ok (ps, h) =>
      initPatterns fe startTime endTime realTime rows
        (m.set (patternKey row.source row.target) ps) h

/-- A run whose patterns have been initialised, before the first generation. -/
def Simulation.initial (state : State) (patterns : KeyMap String PatternState) (drawn : History)
    (endTime : Time) (realTime : Bool) : Simulation where
  state := state
  ws := { patterns := patterns, drawn := drawn, endTime := endTime, realTimeMode := realTime
          startTime := state.now, covered := state.now }

/-- Starts the generator of a run. -/
def start (fe : Feed) (fuel : Nat) (rows : List WorkloadPattern) (endTime : Time) (realTime : Bool)
    (state : State) : Except Halt Simulation :=
  match initPatterns fe state.now endTime realTime rows .empty [] with
  | .error halt => .error halt
  | .ok (patterns, drawn) =>
    let s := Simulation.initial state patterns drawn endTime realTime
    if realTime then generateNextEvents fe fuel s
    else
      let initialHorizon := capTime endTime (state.now + eventGenerationLookaheadWindow)
      match generateUpToHorizon fe fuel initialHorizon s with
      | .error halt => .error halt
      | .ok s => .ok (scheduleGeneration initialHorizon (s.setHorizon initialHorizon))

/-! ### Updates -/

/-- The time of an update is noted. -/
def PatternState.note (now : Time) (ps : PatternState) : PatternState :=
  { ps with revisions := ps.revisions ++ [now], revised := some now, sampled := []
            stalled := false }

/-- Writes back an updated pattern. -/
def Simulation.revise (s : Simulation) (key : String) (ps : PatternState) (drawn : History) :
    Simulation :=
  { s with ws := { s.ws with patterns := s.ws.patterns.set key ps, drawn := drawn } }

def updateRate (fe : Feed) (key : String) (newRateRPS : ℚ) (s : Simulation) :
    Except Halt Simulation :=
  if newRateRPS ≤ 0 then
    .error (.failed ("rate must be positive, got: " ++ toString newRateRPS))
  else
    match s.ws.patterns.get key with
    | none => .error (.failed ("workload pattern not found: " ++ key))
    | some ps =>
      let ps := PatternState.note s.state.now
        { ps with pattern := { ps.pattern with
            arrival := { ps.pattern.arrival with rateRPS := newRateRPS } } }
      if ps.uniform then
        let (ps, drawn) := ps.begin fe s.ws.endTime s.state.now s.ws.realTimeMode s.ws.drawn
        .ok (s.revise key ps drawn)
      else .ok (s.revise key { ps with nextEventTime := s.state.now } s.ws.drawn)

def updatePattern (fe : Feed) (key : String) (pattern : WorkloadPattern) (s : Simulation) :
    Except Halt Simulation :=
  match s.ws.patterns.get key with
  | none => .error (.failed ("workload pattern not found: " ++ key))
  | some ps =>
    match parseDownstreamTarget pattern.target with
    | .error message =>
      .error (.failed ("invalid workload target " ++ pattern.target ++ ": " ++ message))
    | .ok (serviceID, endpointPath) =>
      let ps := PatternState.note s.state.now
        { ps with pattern := pattern, serviceID := serviceID, endpointPath := endpointPath
                  epoch := s.state.now }
      if ps.uniform then
        let (ps, drawn) := ps.begin fe s.ws.endTime s.state.now s.ws.realTimeMode s.ws.drawn
        .ok (s.revise key ps drawn)
      else
        .ok (s.revise key
          { ps with uniformTimes := [], uniformCursor := 0, uniformLazy := false
                    uniformStreamWatermark := 0, uniformGlobalCountMode := false
                    uniformRemaining := 0, nextEventTime := s.state.now } s.ws.drawn)

end SimCore.Workload
