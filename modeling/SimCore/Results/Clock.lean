import SimCore.Workload.Regular

/-!
# The simulation clock

The handlers schedule nothing for the past, unless a retry has a negative backoff. The workload
generator does: an update of a pattern sets its next arrival to the time of the update, or samples
its arrivals from then on, but they are scheduled at the next generation only. In real-time mode the
generator can also be late, because its timer does not wait for the simulation.

The source holds durations in 64 bits, and an interarrival time or a latency of 292 years would turn
into a negative one. `Simulation.InRange` leaves such runs out.

## Main definitions

* `Prompt`: a generation comes before all arrivals it is going to schedule
* `Simulation.InRange`: all that lies ahead is within the range of a duration
* `Simulation.Punctual`: what the generator keeps as long as its generations are prompt

## Main results

* `next_event_not_past`: in a run with prompt generations the clock never goes back
* `update_turns_clock_back`: an update of a constant rate turns the clock back
-/

namespace SimCore.Workload

open Config Simd Protocol

variable {fe : Feed} {env : Env} {standard halted : Bool} {key : String} {endTime limit : Time}
  {fuel : Nat} {b b' : Batch} {s s' : Simulation} {state state' : State} {ps : PatternState}

/-! ### The condition -/

/-- The time at which an action generates arrivals, if it does. -/
def generationTime (s : Simulation) : Action → Option Time
  | .event =>
    match nextEvent s.state with
    | some (t, .workloadGenerate) => some t
    | _ => none
  | .tick => some s.state.now
  | _ => none

/-- A generation within the run comes no later than the updates that it is the first to see, except
for a uniform pattern that has no arrival before it. In real-time mode it comes no later than the
horizon of the generation before it. -/
def Prompt (s : Simulation) (a : Action) : Prop :=
  ∀ t, generationTime s a = some t → t ≤ s.ws.endTime →
    (∀ key ps u, s.ws.patterns.get key = some ps → ps.revised = some u →
      t ≤ u ∨ ps.uniform = true ∧ t ≤ ps.nextEventTime) ∧
    (s.ws.realTimeMode = true → t ≤ s.ws.covered)

/-- Every scheduled event is ahead of the clock, and every next arrival ahead of the epoch of its
pattern, by less than the largest duration of the source. -/
def Simulation.InRange (s : Simulation) : Prop :=
  (∀ e ∈ s.state.eng.pending, e.1 - s.state.now < 2 ^ 63) ∧
    ∀ key ∈ s.ws.patterns.keys, ∀ ps ∈ s.ws.patterns.get key, ps.nextEventTime - ps.epoch < 2 ^ 63

instance (s : Simulation) : Decidable s.InRange :=
  inferInstanceAs (Decidable (_ ∧ _))

/-! ### Generations that are on time -/

/-- No pattern has an arrival to schedule before a time. -/
def Simulation.OnTime (s : Simulation) (t : Time) : Prop :=
  ∀ key ps, s.ws.patterns.get key = some ps → ps.nextEventTime < s.ws.endTime → t ≤ ps.nextEventTime

/-- The loop over the arrivals of a pattern that is on time schedules nothing for the past. -/
theorem Generated.onTime (hf : b.ps.Fit endTime) (hb : b.state.backdated = false)
    (hon : b.ps.nextEventTime < endTime → b.state.now ≤ b.ps.nextEventTime)
    (hg : Generated fe standard key endTime limit b halted b') :
    b'.state.backdated = false ∧
      (b'.ps.nextEventTime < endTime → b.state.now ≤ b'.ps.nextEventTime) := by
  have hs : ∀ {b₁ : Batch}, b₁.state.backdated = false → b₁.state.now = b.state.now →
      b.state.now ≤ b₁.ps.nextEventTime → (b₁.schedule key).state.backdated = false := by
    intro b₁ hba hn hle
    exact (backdated_scheduleOutside (hn.trans_le hle)).trans hba
  obtain ⟨_, ⟨hfit, hba, hn, hle⟩, hl⟩ := hg.induction
    (P := fun b' => b'.ps.Fit endTime ∧ b'.state.backdated = false ∧ b'.state.now = b.state.now ∧
      (b'.ps.nextEventTime < endTime → b.state.now ≤ b'.ps.nextEventTime)) ⟨hf, hb, rfl, hon⟩
    fun b₁ b₂ hb he => by
      obtain ⟨hfit, hba, hn, hle⟩ := hb
      obtain ⟨hf', hst⟩ := he.fit hfit
      obtain ⟨_, _, _, hm, -, -, rfl⟩ := he
      have hle₁ := hle (PatternState.lt_of_more hm)
      exact ⟨hf', hs hba hn hle₁, (now_scheduleOutside ..).trans hn, fun _ => hle₁.trans hst⟩
  rcases hl with ⟨-, rfl, -⟩ | ⟨-, rfl, hm, -⟩
  · exact ⟨hba, hle⟩
  · exact ⟨hs hba hn (hle (PatternState.lt_of_more hm)), hle⟩

theorem generatePattern_onTime (hf : s.AllFit) (hb : s.state.backdated = false)
    (hon : s.OnTime s.state.now)
    (hok : generatePattern fe standard fuel limit key s = .ok (halted, s')) :
    s'.state.backdated = false ∧ s'.OnTime s'.state.now := by
  have hc := (generatePattern_spec hf hok).1
  rcases generatePattern_cases hok with ⟨-, rfl, -⟩ | ⟨ps, b, hps, hg, rfl⟩
  · exact ⟨hb, hon⟩
  · obtain ⟨hf', hn⟩ := s.fit_batch fe limit (hf key ps hps)
    have hs : (s.batch fe limit ps).state = s.state := state_batch s ps
    obtain ⟨hba, hle⟩ := hg.onTime hf' (by rw [hs, hb])
      (by rw [hs, hn]; exact hon key ps hps)
    rw [hs] at hle
    refine ⟨hba, ?_⟩
    rw [Simulation.OnTime, hc.now]
    exact KeyMap.forall_get_set (P := fun _ (ps : PatternState) =>
      ps.nextEventTime < s.ws.endTime → s.state.now ≤ ps.nextEventTime) hon hle

/-- A generation for which every pattern is on time schedules nothing for the past. -/
theorem generate_onTime (hf : s.AllFit) (hb : s.state.backdated = false)
    (hon : s.OnTime s.state.now) (hok : generate fe standard fuel limit s = .ok s') :
    s'.state.backdated = false := by
  obtain ⟨s₁, ⟨hba, -⟩, -, rfl⟩ := generate_induction
    (P := fun s₁ => s₁.state.backdated = false ∧ s₁.OnTime s₁.state.now) hf ⟨hb, hon⟩
    (fun hf₁ _ hs h => generatePattern_onTime hf₁ hs.1 hs.2 h) hok
  exact hba

/-! ### Prompt runs -/

/-- What the generator keeps as long as its generations are prompt: it has scheduled nothing for the
past, and the next arrival of a pattern is not before the last horizon, or not before the last
update. -/
structure Simulation.Punctual (s : Simulation) : Prop where
  backdated : s.state.backdated = false
  covered : ∀ key ps, s.ws.patterns.get key = some ps → ps.revised = none →
    ps.nextEventTime < s.ws.endTime → s.ws.covered ≤ ps.nextEventTime
  revised : ∀ key ps u, s.ws.patterns.get key = some ps → ps.revised = some u →
    ps.nextEventTime < s.ws.endTime → u ≤ ps.nextEventTime

/-- After a generation that was on time. -/
theorem punctual_generate (hf : s.AllFit) (hb : s.state.backdated = false)
    (hon : s.OnTime s.state.now) (hok : generate fe standard fuel limit s = .ok s')
    (hn : s'.state.eng.guardErr = none) : s'.Punctual := by
  obtain ⟨-, -, hc, hd⟩ := generate_spec hf hok
  refine ⟨generate_onTime hf hb hon hok, fun key ps hps _ hlt => ?_, fun key ps u hps hu => ?_⟩
  · rw [hc]
    exact ((hd hn).2 key ps hps).2 hlt
  · rw [((hd hn).2 key ps hps).1] at hu
    cases hu

theorem Simulation.Punctual.scheduleGeneration (hs : s.Punctual) {horizon generated : Time}
    (hle : s.state.now ≤ horizon) :
    (scheduleGeneration horizon (s.setHorizon generated)).Punctual := by
  unfold Workload.scheduleGeneration
  split
  · exact ⟨(backdated_scheduleOutside hle).trans hs.backdated, hs.covered, hs.revised⟩
  · exact ⟨hs.backdated, hs.covered, hs.revised⟩

theorem punctual_handleWorkloadGenerate (hf : s.AllFit) (hs : s.Punctual)
    (hon : s.OnTime s.state.now) (hlt : s.state.now < s.ws.endTime)
    (hok : handleWorkloadGenerate fe fuel s = .ok s') (hn : s'.state.eng.guardErr = none) :
    s'.Punctual := by
  rcases handleWorkloadGenerate_cases hlt hok with ⟨-, rfl⟩ | ⟨-, _, hgen, rfl⟩
  · exact hs
  · have hg := guardErr_scheduleGeneration hn
    have hp := punctual_generate hf hs.backdated hon hgen hg
    have hnow := (generate_spec hf hgen).1.now
    refine hp.scheduleGeneration ?_
    rw [hnow]
    exact (lt_capTime hlt).le

theorem punctual_generateNextEvents (hf : s.AllFit) (hs : s.Punctual)
    (hon : s.state.now ≤ s.ws.endTime → s.OnTime s.state.now)
    (hok : generateNextEvents fe fuel s = .ok s') (hn : s'.state.eng.guardErr = none) :
    s'.Punctual := by
  rcases generateNextEvents_cases hok with ⟨-, rfl⟩ | ⟨hle, hg⟩
  · exact hs
  · exact punctual_generate hf hs.backdated (hon hle) hg hn

theorem guardErr_generateNextEvents (hf : s.AllFit) (hok : generateNextEvents fe fuel s = .ok s')
    (hn : s'.state.eng.guardErr = none) : s.state.eng.guardErr = none := by
  rcases generateNextEvents_cases hok with ⟨-, rfl⟩ | ⟨-, hg⟩
  · exact hn
  · exact ((generate_spec hf hg).2.2.2 hn).1

theorem Simulation.Punctual.revises (hs : s.Punctual) (h : Revises s key s') : s'.Punctual := by
  obtain ⟨ps, _, _, hps, rfl, hr⟩ := h
  refine ⟨hs.backdated, ?_, ?_⟩
  · refine KeyMap.forall_get_set (P := fun _ (ps : PatternState) => ps.revised = none →
      ps.nextEventTime < s.ws.endTime → s.ws.covered ≤ ps.nextEventTime) hs.covered fun hn => ?_
    rw [hr.revised] at hn
    cases hn
  · refine fun key ps u hps => KeyMap.forall_get_set (P := fun _ (ps : PatternState) =>
      ∀ u, ps.revised = some u → ps.nextEventTime < s.ws.endTime → u ≤ ps.nextEventTime)
      (fun key ps hps u => hs.revised key ps u hps) (fun u hu => ?_) key ps hps u
    rw [hr.revised] at hu
    cases hu
    exact hr.next

/-- A prompt generation is on time. -/
theorem Simulation.Punctual.onTime (hs : s.Punctual) {a : Action} {t : Time} (hok : Prompt s a)
    (ht : generationTime s a = some t) (he : t ≤ s.ws.endTime)
    (hc : s.ws.realTimeMode = false → t ≤ s.ws.covered) : s.OnTime t := by
  obtain ⟨hr, hre⟩ := hok t ht he
  intro key ps hps hlt
  cases hu : ps.revised with
  | none =>
    refine le_trans ?_ (hs.covered key ps hps hu hlt)
    cases hmode : s.ws.realTimeMode with
    | true => exact hre hmode
    | false => exact hc hmode
  | some u =>
    rcases hr key ps u hps hu with hle | ⟨-, hle⟩
    · exact hle.trans (hs.revised key ps u hps hu hlt)
    · exact hle

theorem Prepared.backdated (h : Prepared env state) : state.backdated = false := by
  induction h with
  | init h =>
    obtain ⟨_, m, -, rfl⟩ := h.placed
    rfl
  | outside hs h ih => rw [(h.course hs.reachable).2.1, ih]

theorem punctual_start {rows : List WorkloadPattern} {realTime : Bool} (hd : state.now ≤ endTime)
    (hb : state.backdated = false) (hok : start fe fuel rows endTime realTime state = .ok s)
    (hn : s.state.eng.guardErr = none) : s.Punctual := by
  obtain ⟨patterns, drawn, hi, hc⟩ := start_cases hd hok
  -- before the first generation every pattern is at or after the start
  obtain ⟨s₀, hs₀⟩ : ∃ s₀, s₀ = Simulation.initial state patterns drawn endTime realTime := ⟨_, rfl⟩
  have hr := forall_initPatterns hi
  have hf : s₀.AllFit := fun key ps hps => by
    rw [hs₀] at hps ⊢
    obtain ⟨_, -, -, hrow⟩ := hr key ps hps
    exact hrow.fit
  have hon : s₀.OnTime s₀.state.now := fun key ps hps => by
    rw [hs₀] at hps ⊢
    obtain ⟨_, -, -, hrow⟩ := hr key ps hps
    exact hrow.next
  have hb₀ : s₀.state.backdated = false := by rw [hs₀]; exact hb
  have hnow : s₀.state.now = state.now := by rw [hs₀]; rfl
  have he : s₀.ws.endTime = endTime := by rw [hs₀]; rfl
  rw [← hs₀] at hc
  rcases hc with ⟨-, hgen⟩ | ⟨-, s₁, hgen, rfl⟩
  · exact punctual_generate hf hb₀ hon hgen hn
  · have hg := guardErr_scheduleGeneration hn
    rcases hgen with ⟨_, hgen⟩ | ⟨heq, rfl⟩
    · refine (punctual_generate hf hb₀ hon hgen hg).scheduleGeneration ?_
      rw [(generate_spec hf hgen).1.now]
      exact (lt_capTime (by rwa [hnow, he])).le
    · -- the run is over before it begins
      have hp : s₁.Punctual := by
        refine ⟨hb₀, fun key ps hps _ => ?_, fun key ps u hps hu => ?_⟩
        · rw [show s₁.ws.covered = s₁.state.now by rw [hs₀]; rfl]
          exact hon key ps hps
        · rw [hs₀] at hps
          obtain ⟨_, -, -, hrow⟩ := hr key ps hps
          rw [hrow.revised] at hu
          cases hu
      refine hp.scheduleGeneration ?_
      rw [Simulation.nextLimit, hnow, he, capTime,
        if_pos (by rw [heq]; exact lt_add_of_pos_right _ (by decide)), heq]

/-- In a run with prompt generations the generator is punctual as long as no guardrail error is
latched. -/
theorem RunBy.punctual {ok : Simulation → Action → Prop} (hp : ∀ s a, ok s a → Prompt s a)
    (h : RunBy fe env ok s) (hn : s.state.eng.guardErr = none) : s.Punctual := by
  induction h with
  | start hpre _ _ _ hd h => exact punctual_start hd hpre.backdated h hn
  | @step s _ _ hs hok h ih =>
    have hr := hs.regular
    have hre := hs.reachable
    have hok := hp _ _ hok
    cases h with
    | @event state h =>
      have hpu := ih (guardErr_of_stepEvent h)
      have hb : state.backdated = s.state.backdated := by
        rcases takes_stepEvent hre h with ⟨-, -, hb, -⟩ | ⟨t, k, -, ht⟩
        · exact hb
        · exact ht.backdated_eq
      exact ⟨hb.trans hpu.backdated, hpu.covered, hpu.revised⟩
    | @generate _ state t _ h hk hg =>
      have hpu := ih (guardErr_of_stepEvent h)
      have hdue := hr.takesDue hre h hk
      have hgen : generationTime s .event = some t := by simp [generationTime, hk]
      have hon : s.OnTime t := hpu.onTime hok hgen (hdue.time.le.trans hr.covered_le)
        fun _ => hdue.time.le
      refine punctual_handleWorkloadGenerate (s := { s with state := state }) hr.fit
        ⟨hdue.backdated.trans hpu.backdated, hpu.covered, hpu.revised⟩ ?_ ?_ hg
        hn
      · rw [show ({ s with state := state } : Simulation).state.now = t from hdue.now]
        exact hon
      · show state.now < s.ws.endTime
        rw [hdue.now, hdue.time]
        exact hdue.lt
    | tick _ hreal _ hg =>
      have hpu := ih (guardErr_generateNextEvents hr.fit hg hn)
      exact punctual_generateNextEvents hr.fit hpu (fun he => hpu.onTime hok rfl
        he fun hm => nomatch hm.symm.trans hreal) hg hn
    | updateRate _ _ h =>
      exact (ih (by rwa [state_updateRate h] at hn)).revises (updateRate_spec hr.fit h)
    | updatePattern _ _ h =>
      exact (ih (by rwa [state_updatePattern h] at hn)).revises
        (updatePattern_spec hr.fit h)
    | stop =>
      have hpu := ih hn
      exact ⟨hpu.backdated, hpu.covered, hpu.revised⟩
    | outside h =>
      obtain ⟨-, hb, -, hgu⟩ := h.course hre
      have hpu := ih (hgu hn)
      exact ⟨hb.trans hpu.backdated, hpu.covered, hpu.revised⟩

/-- In a run with prompt generations and all durations in range, under a retry policy without
negative backoff, an event that is taken from the queue lies ahead, by a duration of the source. -/
theorem next_event_not_past (hf : Forward env)
    (h : RunBy fe env (fun s a => Prompt s a ∧ s.InRange) s) (hr : s.InRange)
    {event : Event EventKind} {eng : Engine EventKind}
    (hnext : s.state.eng.next = some (event, eng)) :
    s.state.now ≤ event.time ∧ event.time - s.state.now < 2 ^ 63 := by
  obtain ⟨hn, -, -, -, _, _, hp, -⟩ := Engine.next_eq_some hnext
  have hm : (event.time, event.kind) ∈ s.state.eng.pending := by
    rw [hp]
    exact List.mem_append_right _ List.mem_cons_self
  refine ⟨?_, hr.1 _ hm⟩
  exact h.reachable.reached.clock.future event.time event.kind hm (fun _ => hf)
    (h.punctual (fun _ _ hok => hok.1) hn).backdated

/-- An arrival every five seconds. -/
def steady : Env :=
  .still (oneRow { type := "constant", rateRPS := 1 / 5 })

theorem forward_steady : Forward steady := by
  intro p hp
  cases hp

/-- After the arrival at five seconds, the next event lies ahead. -/
theorem next_event_not_past_steady : ∃ s event eng,
    RunBy .still steady (fun s a => Prompt s a ∧ s.InRange) s ∧ s.state.now = 5 * second ∧
      s.state.eng.next = some (event, eng) ∧ s.state.now ≤ event.time := by
  obtain ⟨s₀, hs₀, ht⟩ := exists_of_trial
    (x := start .still 10 steady.scenario.normalizedWorkload (30 * second) false
      (startState steady.scenario {}))
    (p := fun s₀ : Simulation => decide (s₀.InRange ∧ generationTime s₀ .event = none) &&
      (perform .still steady 10 s₀ .event).toOption.any fun s : Simulation => decide (s.InRange ∧
        s.state.now = 5 * second) && s.state.eng.next.isSome) (by decide +kernel)
  rw [Bool.and_eq_true, decide_eq_true_eq] at ht
  obtain ⟨⟨hin, hnone⟩, ht⟩ := ht
  obtain ⟨s, hs, ht⟩ := exists_of_trial ht
  rw [Bool.and_eq_true, decide_eq_true_eq] at ht
  obtain ⟨⟨hin', hnow⟩, hsome⟩ := ht
  obtain ⟨⟨event, eng⟩, hn⟩ := Option.isSome_iff_exists.1 hsome
  have hr₀ : RunBy .still steady (fun s a => Prompt s a ∧ s.InRange) s₀ :=
    .start (.init (initial_startState (by decide +kernel))) 10 (30 * second) false (by decide) hs₀
  have hp : Prompt s₀ .event := fun t ht => nomatch hnone.symm.trans ht
  have hr := runBy_perform hr₀ ⟨hp, hin⟩ hs
  exact ⟨s, event, eng, hr, hnow, hn, (next_event_not_past forward_steady hr hin' hn).1⟩

/-- After five seconds the rate is updated, to the same value. The next generation comes five
seconds later and schedules an arrival for the time of the update. -/
theorem update_turns_clock_back : ∃ s event eng, RunBy .still steady (fun _ _ => True) s ∧
    Forward steady ∧ s.state.eng.next = some (event, eng) ∧ event.time < s.state.now := by
  obtain ⟨s, ht, hte⟩ := exists_of_trial
    (x := trial .still steady 10 (30 * second) false
      [.event, .updateRate "client:api:/" (1 / 5), .event, .event, .event])
    (p := fun s => s.state.eng.next.any fun r => r.1.time < s.state.now) (by decide +kernel)
  obtain ⟨⟨event, eng⟩, hn, hti⟩ := (Option.any_eq_true _ _).1 hte
  exact ⟨s, event, eng, runBy_trial (by decide +kernel) (fun _ _ _ => trivial) (by decide) ht,
    forward_steady, hn, of_decide_eq_true hti⟩

end SimCore.Workload
