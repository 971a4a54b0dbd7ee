import SimCore.Refinement.Run
import SimCore.Workload.Generation

/-!
# Runs with a workload generator

A run with its workload generator takes the steps of the event loop, of the generator's timer, of
the callers that update patterns, and of the rest of the outside, each as a whole. A step of the
event loop that takes a `WorkloadGenerate` event is followed by the generator's handler. Every run
of this kind is a run of the event loop whose arrivals the generator schedules.

## Main definitions

* `Step`, `RunBy`: the steps, and the states that runs reach if a condition holds at every step
* `trial`: the run of a scenario under given actions
* `dueTimes`: the times of the pending `WorkloadGenerate` events

## Main results

* `RunBy.reachable`: runs with a generator are runs
* `takes_stepEvent`: what a turn of the event loop does to the events of the generator
-/

namespace SimCore.Workload

open Config Simd Protocol

variable {fe : Feed} {env : Env} {standard halted : Bool} {key : String} {endTime limit : Time}
  {fuel : Nat} {b b' : Batch} {s s' : Simulation} {state state' : State} {ps : PatternState}
  {t : Time} {k : EventKind}

/-! ### Steps -/

/-- What acts on a run from outside, beside the workload generator. -/
inductive Outside (env : Env) : State → State → Prop
  | drainSweep {s : State} (t : Time) (ht : s.now ≤ t) :
      Outside env s (scheduleOutside s t .drainSweep)
  | simulationEnd {s : State} (t : Time) (ht : s.now ≤ t) :
      Outside env s (scheduleOutside s t .simulationEnd)
  | scale {s : State} (op : Resource.Scaling) (h : op.timely s.now = true) :
      Outside env s (scale s op)
  | sweep {s : State} : Outside env s (controllerSweep s)
  | abort {s : State} (err : LimitExceeded) :
      Outside env s { s with eng := s.eng.triggerGuardFailure err }

/-- The time and kind of the event that the next turn of the event loop handles. -/
def nextEvent (s : State) : Option (Time × EventKind) :=
  match s.eng.next with
  | none => none
  | some (event, eng) => if eng.overProcessed then none else some (event.time, event.kind)

/-- What a run with a generator can do next. -/
inductive Action where
  | event
  | tick
  | updateRate (key : String) (rate : ℚ)
  | updatePattern (key : String) (pattern : WorkloadPattern)
  | stop
  | outside

/-- The steps of a run with a generator. -/
inductive Step (fe : Feed) (env : Env) : Simulation → Action → Simulation → Prop
  | event {s : Simulation} {state : State} (h : stepEvent env s.state = some state)
      (hk : ∀ t, nextEvent s.state ≠ some (t, .workloadGenerate)) :
      Step fe env s .event { s with state := state }
  | generate {s s' : Simulation} {state : State} (t : Time) (fuel : Nat)
      (h : stepEvent env s.state = some state)
      (hk : nextEvent s.state = some (t, .workloadGenerate))
      (hg : handleWorkloadGenerate fe fuel { s with state := state } = .ok s') :
      Step fe env s .event s'
  | tick {s s' : Simulation} (fuel : Nat) (hr : s.ws.realTimeMode = true)
      (hs : s.ws.stopped = false) (hg : generateNextEvents fe fuel s = .ok s') :
      Step fe env s .tick s'
  | updateRate {s s' : Simulation} (key : String) (rate : ℚ)
      (h : updateRate fe key rate s = .ok s') : Step fe env s (.updateRate key rate) s'
  | updatePattern {s s' : Simulation} (key : String) (pattern : WorkloadPattern)
      (h : updatePattern fe key pattern s = .ok s') : Step fe env s (.updatePattern key pattern) s'
  | stop {s : Simulation} : Step fe env s .stop { s with ws := { s.ws with stopped := true } }
  | outside {s : Simulation} {state : State} (h : Outside env s.state state) :
      Step fe env s .outside { s with state := state }

/-- The states in which the generator can be started. -/
inductive Prepared (env : Env) : State → Prop
  | init {s : State} (h : Initial env s) : Prepared env s
  | outside {s s' : State} (hs : Prepared env s) (h : Outside env s s') : Prepared env s'

/-- The states that runs reach which take their actions only if a condition holds. -/
inductive RunBy (fe : Feed) (env : Env) (ok : Simulation → Action → Prop) : Simulation → Prop
  | start {state : State} {s : Simulation} (hp : Prepared env state) (fuel : Nat) (endTime : Time)
      (realTime : Bool) (hd : state.now ≤ endTime)
      (h : start fe fuel env.scenario.normalizedWorkload endTime realTime state = .ok s) :
      RunBy fe env ok s
  | step {s s' : Simulation} {a : Action} (hs : RunBy fe env ok s) (hok : ok s a)
      (h : Step fe env s a s') : RunBy fe env ok s'

/-! ### Runs with a generator are runs -/

theorem Outside.step (h : Outside env state state') : Simd.Step env state state' := by
  cases h with
  | drainSweep t => exact .schedule t _ rfl
  | simulationEnd t => exact .schedule t _ rfl
  | scale op h => exact .scale op h
  | sweep => exact .sweep
  | abort err => exact .abort err

theorem Prepared.reachable (h : Prepared env state) : Reachable env state := by
  induction h with
  | init h => exact .init h
  | outside _ h ih => exact .step ih h.step

theorem Prepared.valid (h : Prepared env state) : validateScenario env.scenario = .ok () := by
  induction h with
  | init h => exact h.valid
  | outside _ _ ih => exact ih

theorem steps_schedule (key : String) (b : Batch) : Steps env b.state (b.schedule key).state :=
  .single (.schedule _ _ rfl)

theorem Generated.steps (hg : Generated fe standard key endTime limit b halted b') :
    Steps env b.state b'.state := by
  obtain ⟨b₀, hs, hl⟩ := hg.induction (P := fun b' => Steps env b.state b'.state) .refl
    fun b₁ b₂ hb he => by
      obtain ⟨_, _, _, -, -, -, rfl⟩ := he
      exact hb.trans (steps_schedule key b₁)
  rcases hl with ⟨-, rfl, -⟩ | ⟨-, rfl, -⟩
  · exact hs
  · exact hs.trans (steps_schedule key b₀)

theorem state_batch (s : Simulation) (ps : PatternState) : (s.batch fe limit ps).state = s.state :=
  rfl

theorem generatePattern_steps
    (hok : generatePattern fe standard fuel limit key s = .ok (halted, s')) :
    Steps env s.state s'.state := by
  rcases generatePattern_cases hok with ⟨-, rfl, -⟩ | ⟨ps, b, -, hg, rfl⟩
  · exact .refl
  · have hs : Steps env (s.batch fe limit ps).state b.state := hg.steps
    rwa [state_batch] at hs

theorem generate_steps (hok : generate fe standard fuel limit s = .ok s') :
    Steps env s.state s'.state := by
  unfold generate at hok
  split at hok
  · cases hok
  · rename_i s₁ he
    cases hok
    have hst : Steps env s.state s₁.state :=
      generateEach_induction (P := fun _ s' => Steps env s.state s'.state)
        (fun key rest s₁ halted s₂ hs h => hs.trans (generatePattern_steps h)) (fun _ _ _ h => h)
        .refl he
    exact hst

theorem generateUpToHorizon_steps (hok : generateUpToHorizon fe fuel limit s = .ok s') :
    Steps env s.state s'.state := by
  unfold generateUpToHorizon at hok
  split at hok
  · cases hok
    exact .refl
  split at hok
  · cases hok
    exact .refl
  · exact generate_steps hok

theorem generateNextEvents_steps (hok : generateNextEvents fe fuel s = .ok s') :
    Steps env s.state s'.state := by
  unfold generateNextEvents at hok
  split at hok
  · cases hok
    exact .refl
  · exact generate_steps hok

theorem scheduleGeneration_steps (horizon : Time) (state : State) (ws : WorkloadState) :
    Steps env state (scheduleGeneration horizon ⟨state, ws⟩).state := by
  unfold scheduleGeneration
  split
  · exact .single (.schedule _ _ rfl)
  · exact .refl

theorem handleWorkloadGenerate_steps (hok : handleWorkloadGenerate fe fuel s = .ok s') :
    Steps env s.state s'.state := by
  unfold handleWorkloadGenerate at hok
  split at hok
  · cases hok
    exact .refl
  · simp only at hok
    split at hok
    · cases hok
    · rename_i hg
      cases hok
      exact (generateUpToHorizon_steps hg).trans (scheduleGeneration_steps _ _ _)

theorem start_steps {rows : List WorkloadPattern} {realTime : Bool}
    (hok : start fe fuel rows endTime realTime state = .ok s) : Steps env state s.state := by
  unfold start at hok
  split at hok
  · cases hok
  · simp only at hok
    split at hok
    · exact generateNextEvents_steps hok
    · split at hok
      · cases hok
      · rename_i hg
        cases hok
        exact (generateUpToHorizon_steps hg).trans (scheduleGeneration_steps _ _ _)

theorem state_updateRate {rate : ℚ} (hok : updateRate fe key rate s = .ok s') :
    s'.state = s.state := by
  unfold updateRate at hok
  split at hok
  · cases hok
  split at hok
  · cases hok
  simp only at hok
  split at hok
  · cases hok
    rfl
  · cases hok
    rfl

theorem state_updatePattern {pattern : WorkloadPattern}
    (hok : updatePattern fe key pattern s = .ok s') : s'.state = s.state := by
  unfold updatePattern at hok
  split at hok
  · cases hok
  split at hok
  · cases hok
  simp only at hok
  split at hok
  · cases hok
    rfl
  · cases hok
    rfl

theorem Step.steps {a : Action} (h : Step fe env s a s') : Steps env s.state s'.state := by
  cases h with
  | event h => exact .single (.event h)
  | generate _ _ h _ hg =>
    exact (Relation.ReflTransGen.single (.event h)).trans (handleWorkloadGenerate_steps hg)
  | tick _ _ _ hg => exact generateNextEvents_steps hg
  | updateRate _ _ h => rw [state_updateRate h]; exact .refl
  | updatePattern _ _ h => rw [state_updatePattern h]; exact .refl
  | stop => exact .refl
  | outside h => exact .single h.step

theorem RunBy.reachable {ok : Simulation → Action → Prop} (h : RunBy fe env ok s) :
    Reachable env s.state := by
  induction h with
  | start hp _ _ _ _ h => exact hp.reachable.steps (start_steps h)
  | step _ _ h ih => exact ih.steps h.steps

/-! ### Running given actions -/

/-- Takes an action that is possible; other actions of the outside have no effect. -/
def perform (fe : Feed) (env : Env) (fuel : Nat) (s : Simulation) : Action → Except Halt Simulation
  | .event =>
    match stepEvent env s.state with
    | none => .ok s
    | some state =>
      match nextEvent s.state with
      | some (_, .workloadGenerate) => handleWorkloadGenerate fe fuel { s with state := state }
      | _ => .ok { s with state := state }
  | .tick =>
    if s.ws.realTimeMode = true ∧ s.ws.stopped = false then generateNextEvents fe fuel s else .ok s
  | .updateRate key rate => updateRate fe key rate s
  | .updatePattern key pattern => updatePattern fe key pattern s
  | .stop => .ok { s with ws := { s.ws with stopped := true } }
  | .outside => .ok s

/-- Takes several actions. -/
def performAll (fe : Feed) (env : Env) (fuel : Nat) :
    List Action → Simulation → Except Halt Simulation
  | [], s => .ok s
  | a :: as, s =>
    match perform fe env fuel s a with
    | .error halt => .error halt
    | .ok s => performAll fe env fuel as s

/-- Starts a run of the scenario at time 0 and takes the given actions. -/
def trial (fe : Feed) (env : Env) (fuel : Nat) (endTime : Time) (realTime : Bool)
    (actions : List Action) : Except Halt Simulation :=
  match start fe fuel env.scenario.normalizedWorkload endTime realTime
      (startState env.scenario {}) with
  | .error halt => .error halt
  | .ok s => performAll fe env fuel actions s

section Perform

variable {ok : Simulation → Action → Prop}

theorem runBy_perform (hs : RunBy fe env ok s) {a : Action} (hok : ok s a)
    (h : perform fe env fuel s a = .ok s') : RunBy fe env ok s' := by
  cases a with
  | event =>
    rw [perform] at h
    split at h
    · cases h
      exact hs
    · rename_i hst
      split at h
      · rename_i t hn
        exact .step hs hok (.generate t fuel hst hn h)
      · rename_i hn
        cases h
        exact .step hs hok (.event hst fun t ht => hn t ht)
  | tick =>
    rw [perform] at h
    split_ifs at h with hm
    · exact .step hs hok (.tick fuel hm.1 hm.2 h)
    · cases h
      exact hs
  | updateRate key rate => exact .step hs hok (.updateRate key rate h)
  | updatePattern key pattern => exact .step hs hok (.updatePattern key pattern h)
  | stop =>
    cases h
    exact .step hs hok .stop
  | outside =>
    cases h
    exact hs

theorem runBy_performAll {actions : List Action} (hok : ∀ a ∈ actions, ∀ s, ok s a)
    (hs : RunBy fe env ok s) (h : performAll fe env fuel actions s = .ok s') :
    RunBy fe env ok s' := by
  induction actions generalizing s with
  | nil =>
    cases h
    exact hs
  | cons a _ ih =>
    rw [performAll] at h
    split at h
    · cases h
    · rename_i hp
      exact ih (fun a ha => hok a (List.mem_cons_of_mem _ ha))
        (runBy_perform hs (hok a List.mem_cons_self s) hp) h

theorem runBy_trial (hc : canStart env.scenario {} = true) {realTime : Bool}
    {actions : List Action} (hok : ∀ a ∈ actions, ∀ s, ok s a) (hd : 0 ≤ endTime)
    (h : trial fe env fuel endTime realTime actions = .ok s) : RunBy fe env ok s := by
  unfold trial at h
  split at h
  · cases h
  · rename_i hs
    exact runBy_performAll hok (.start (.init (initial_startState hc)) fuel endTime realTime hd
      hs) h

end Perform

/-- A generator whose draws are all zero, and which visits the patterns in the order in which they
were written. -/
def Feed.still : Feed where
  source := { value := fun _ _ => 0, float64_nonneg := fun _ => le_rfl
              float64_lt_one := fun _ => zero_lt_one, expFloat64_nonneg := fun _ => le_rfl }
  sqrt := id
  order _ keys := keys
  order_perm _ _ := .refl _

/-- A generator whose draws are all one half. -/
def Feed.halves : Feed where
  source := { value := fun _ _ => 1 / 2, float64_nonneg := fun _ => by norm_num
              float64_lt_one := fun _ => by norm_num, expFloat64_nonneg := fun _ => by norm_num }
  sqrt := id
  order _ keys := keys
  order_perm _ _ := .refl _

/-- A service with one workload row. -/
def oneRow (arrival : ArrivalSpec) : Scenario :=
  { oneService [{ id := "h", cores := 4, memoryGB := 8 }] 100 with
    workload := [{ source := "client", target := "api:/", arrival := arrival }] }

/-- Two services, with one and two endpoints. -/
def manyRows (rows : List WorkloadPattern) : Scenario where
  hosts := [{ id := "h", cores := 4, memoryGB := 8 }]
  services := [{ id := "api", cpuCores := 1, memoryMB := 100
                 endpoints := [{ path := "/", meanCPUMs := 1 }] },
               { id := "db", cpuCores := 1, memoryMB := 100
                 endpoints := [{ path := "/", meanCPUMs := 1 },
                   { path := "api:/", meanCPUMs := 1 }] }]
  workload := rows

/-- A row with the given ends and rate. -/
def constantRow (source target : String) (rate : ℚ) : WorkloadPattern where
  source := source
  target := target
  arrival := { type := "constant", rateRPS := rate }

/-- A trial whose result passes a test reaches a state that passes it. -/
theorem exists_of_trial {α : Type} {x : Except Halt α} {p : α → Bool}
    (h : x.toOption.any p = true) : ∃ a, x = .ok a ∧ p a = true := by
  cases x with
  | error => cases h
  | ok a => exact ⟨a, rfl, h⟩

/-! ### The events of the generator -/

/-- The events that only the generator schedules. -/
def feeds : EventKind → Bool
  | .requestArrival _ => true
  | .workloadGenerate => true
  | _ => false

/-- The events of the generator in a list of events. -/
def feedOf (es : List (Time × EventKind)) : List (Time × EventKind) :=
  es.filter fun e => feeds e.2

theorem feedOf_append (es es' : List (Time × EventKind)) :
    feedOf (es ++ es') = feedOf es ++ feedOf es' :=
  List.filter_append ..

/-- No handler issues an event of the generator. -/
theorem feeds_of_issued {f f' : Flow} (h : Issued env f f' t k) : feeds k = false := by
  cases h with
  | loose _ _ hl => cases k <;> first | rfl | cases hl
  | publish _ _ _ _ _ _ _ hp | spawnPublish _ _ _ _ _ _ _ _ hp =>
    cases k <;> first | rfl | cases hp
  | overhead _ _ _ _ _ _ _ _ _ _ _ _ _ _ _ _ hm | retryOverhead _ _ _ _ _ _ _ _ _ _ _ hm =>
    simp only [OverheadData.events, List.mem_cons, Prod.mk.injEq, List.not_mem_nil, or_false] at hm
    obtain ⟨-, rfl⟩ | ⟨-, rfl⟩ := hm <;> rfl
  | ack ref => cases ref <;> rfl
  | _ => rfl

/-- The actions of a handler take no time, and leave the events of the generator alone. -/
theorem feedOf_acts {f f' : Flow} (h : Acts env f f') :
    f'.now = f.now ∧ f'.backdated = f.backdated ∧ feedOf f'.events = feedOf f.events := by
  induction h with
  | refl => exact ⟨rfl, rfl, rfl⟩
  | tail _ h ih =>
    obtain ⟨hnow, hb, hf⟩ := ih
    obtain ⟨es, hev, hi⟩ := h.issued
    refine ⟨h.now_eq.trans hnow, h.backdated_eq.trans hb, ?_⟩
    rw [hev, feedOf_append, ← hf]
    have hn : feedOf es = [] :=
      List.filter_eq_nil_iff.2 fun e he => by simp [feeds_of_issued (hi e.1 e.2 he)]
    rw [hn, List.nil_append]

/-- A turn of the event loop takes an event off the queue. -/
structure Takes (state state' : State) (t : Time) (k : EventKind) : Prop where
  now_eq : state'.now = t
  backdated_eq : state'.backdated = state.backdated
  feed : ∃ newer older, state.eng.pending = newer ++ (t, k) :: older ∧
    feedOf state'.eng.pending = feedOf newer ++ feedOf older

/-- A turn of the event loop takes an event off the queue, unless the limit on processed events
stops it. -/
theorem takes_stepEvent (hs : Reachable env state) (h : stepEvent env state = some state') :
    (nextEvent state = none ∧ state'.now = state.now ∧ state'.backdated = state.backdated ∧
        state'.eng.pending = state.eng.pending) ∨
      ∃ t k, nextEvent state = some (t, k) ∧ Takes state state' t k := by
  have hn : ∃ event eng, state.eng.next = some (event, eng) := by
    unfold stepEvent at h
    split at h
    · cases h
    · rename_i event eng hn
      exact ⟨event, eng, hn⟩
  obtain ⟨event, eng, hn⟩ := hn
  rcases acts_stepEvent hs.reached h with ⟨hsa, -, ho⟩ |
    ⟨event', _, newer, older, hn', ho, hp, -, ha⟩
  · refine .inl ⟨?_, congrArg Flow.now hsa, congrArg Flow.backdated hsa, congrArg Flow.events hsa⟩
    simp [nextEvent, hn, ho event eng hn]
  · obtain ⟨hnow, hb, hf⟩ := feedOf_acts ha
    refine .inr ⟨event'.time, event'.kind, by simp [nextEvent, hn', ho], hnow, hb, newer,
      older, hp, ?_⟩
    rw [← feedOf_append]
    exact hf

theorem guardErr_of_stepEvent (h : stepEvent env state = some state') :
    state.eng.guardErr = none := by
  unfold stepEvent at h
  split at h
  · cases h
  · rename_i hn
    exact (Engine.next_eq_some hn).1

theorem pending_scheduleOutside (state : State) (t : Time) (k : EventKind) :
    (scheduleOutside state t k).eng.pending = (t, k) :: state.eng.pending :=
  Engine.scheduleAt_pending ..

@[simp] theorem now_scheduleOutside (state : State) (t : Time) (k : EventKind) :
    (scheduleOutside state t k).now = state.now := by
  show (state.scheduleAt t k).now = state.now
  simp

theorem guardErr_scheduleOutside (h : (scheduleOutside state t k).eng.guardErr = none) :
    state.eng.guardErr = none := by
  have hs : (state.eng.scheduleAt t k).guardErr = none := h
  unfold Engine.scheduleAt at hs
  split at hs
  · cases hs
  · split at hs
    · cases hs
    · exact hs

theorem backdated_scheduleOutside (ht : state.now ≤ t) :
    (scheduleOutside state t k).backdated = state.backdated := by
  simp [scheduleOutside, ht]

theorem eng_controllerSweep (hs : Reachable env state) :
    (controllerSweep state).eng = state.eng ∧
      (controllerSweep state).backdated = state.backdated := by
  have hm : state.rm.ledger.Coherent := hs.reached.coherent
  unfold controllerSweep
  split
  · exact ⟨rfl, rfl⟩
  · simp only [Resource.Manager.dropped_processDrainingInstances hm.toPlaced, List.foldl_nil]
    trivial

/-- The outside takes no time, leaves the events of the generator alone, schedules nothing for the
past and does not clear a guardrail error. -/
theorem Outside.course (hs : Reachable env state) (h : Outside env state state') :
    state'.now = state.now ∧ state'.backdated = state.backdated ∧
      feedOf state'.eng.pending = feedOf state.eng.pending ∧
      (state'.eng.guardErr = none → state.eng.guardErr = none) := by
  cases h with
  | drainSweep t ht | simulationEnd t ht =>
    refine ⟨now_scheduleOutside .., backdated_scheduleOutside ht, ?_, guardErr_scheduleOutside⟩
    rw [pending_scheduleOutside]
    rfl
  | scale => exact ⟨rfl, rfl, rfl, id⟩
  | sweep =>
    obtain ⟨he, hb⟩ := eng_controllerSweep hs
    refine ⟨congrArg Engine.simTime he, hb, ?_, ?_⟩ <;> rw [he]
    exact id
  | abort =>
    refine ⟨rfl, rfl, rfl, fun h => ?_⟩
    cases h

/-! ### Pending generations -/

/-- The times of the `WorkloadGenerate` events in a list of events. -/
def generationTimes (es : List (Time × EventKind)) : List Time :=
  (es.filter fun e => e.2 == .workloadGenerate).map Prod.fst

theorem generationTimes_append (es es' : List (Time × EventKind)) :
    generationTimes (es ++ es') = generationTimes es ++ generationTimes es' := by
  simp [generationTimes]

theorem generationTimes_feedOf (es : List (Time × EventKind)) :
    generationTimes (feedOf es) = generationTimes es := by
  unfold generationTimes feedOf
  rw [List.filter_filter]
  refine congrArg _ (List.filter_congr fun e _ => ?_)
  cases e.2 <;> rfl

theorem generationTimes_cons_of_ne (hk : k ≠ .workloadGenerate) (es : List (Time × EventKind)) :
    generationTimes ((t, k) :: es) = generationTimes es := by
  simp [generationTimes, hk]

theorem generationTimes_cons_self (t : Time) (es : List (Time × EventKind)) :
    generationTimes ((t, .workloadGenerate) :: es) = t :: generationTimes es := by
  simp [generationTimes]

/-- The times of the pending `WorkloadGenerate` events. -/
def dueTimes (state : State) : List Time :=
  generationTimes state.eng.pending

theorem dueTimes_scheduleOutside (hk : k ≠ .workloadGenerate) (t : Time) :
    dueTimes (scheduleOutside state t k) = dueTimes state := by
  rw [dueTimes, pending_scheduleOutside, generationTimes_cons_of_ne hk, dueTimes]

theorem Takes.dueTimes_eq (h : Takes state state' t k) (hk : k ≠ .workloadGenerate) :
    dueTimes state' = dueTimes state := by
  obtain ⟨_, _, hp, hf⟩ := h.feed
  rw [dueTimes, ← generationTimes_feedOf, hf, ← feedOf_append, generationTimes_feedOf, dueTimes,
    hp, generationTimes_append, generationTimes_append, generationTimes_cons_of_ne hk]

theorem dueTimes_eq_of_feedOf (h : feedOf state'.eng.pending = feedOf state.eng.pending) :
    dueTimes state' = dueTimes state := by
  rw [dueTimes, ← generationTimes_feedOf, h, generationTimes_feedOf, dueTimes]

theorem Takes.generate_due (h : Takes state state' t .workloadGenerate) :
    ∃ newer older, dueTimes state = newer ++ t :: older ∧ dueTimes state' = newer ++ older := by
  obtain ⟨newer, older, hp, hf⟩ := h.feed
  refine ⟨generationTimes newer, generationTimes older, ?_, ?_⟩
  · rw [dueTimes, hp, generationTimes_append, generationTimes_cons_self]
  · rw [dueTimes, ← generationTimes_feedOf, hf, ← feedOf_append, generationTimes_feedOf,
      generationTimes_append]

end SimCore.Workload
