import SimCore.Workload.Invariant

/-!
# The number of arrivals of a uniform pattern

In standard mode the arrivals that a uniform pattern has to have in a run are distributed over
chunks. A pattern without an arrival in its schedule is put at the end of the run, from where no
generation brings it back: the arrivals that had not yet been distributed then are lost.

## Main definitions

* `scheduledTimes`: the times of the arrivals scheduled for a pattern, in the order of scheduling
* `Tallied`: the sampled arrivals of a pattern are those scheduled and those still in its schedule

## Main results

* `uniform_count`: the number of arrivals is the intended one exactly if the schedule was never
  given up with arrivals left to distribute
* `uniform_count_lost`: a run without any of its two arrivals
-/

namespace SimCore.Workload

open Config Simd Protocol PatternState List

variable {fe : Feed} {env : Env} {standard halted : Bool} {key : String}
  {startTime endTime limit : Time} {fuel : Nat} {b b' : Batch} {s s' : Simulation} {state : State}
  {ps ps' : PatternState} {times new : List Time}

/-! ### Scheduled arrivals -/

/-- The times of the arrivals scheduled for a pattern, in the order of scheduling. -/
def scheduledTimes (key : String) (log : List (Time × ArrivalData)) : List Time :=
  ((keyLog key log).map Prod.fst).reverse

theorem scheduledTimes_schedule (key : String) (b : Batch) :
    scheduledTimes key (b.schedule key).log = scheduledTimes key b.log ++ [b.ps.nextEventTime] := by
  simp [scheduledTimes, keyLog_schedule_self]

/-! ### The schedule of a pattern -/

/-- What holds of a uniform pattern in standard mode, in a run from `startTime` on. Its sampled
arrivals are those scheduled so far and those still in its schedule; with those left to distribute
they make up the intended number. It is at its next arrival, or at the end of the run with nothing
left, or it has been given up. -/
structure Tallied (startTime endTime : Time) (times : List Time) (ps : PatternState) : Prop where
  start_le : startTime ≤ endTime
  rate : 0 < ps.pattern.arrival.rateRPS
  mode : ps.uniformGlobalCountMode = true
  scheduled : times ++ ps.upcoming = ps.sampled
  counted : ps.uniformRemaining + ps.sampled.length =
    uniformTotal ps.pattern.arrival.rateRPS (endTime - startTime)
  inRun : ∀ t ∈ ps.sampled, startTime ≤ t ∧ t < endTime
  watermark : startTime ≤ ps.uniformStreamWatermark
  place : (ps.stalled = false ∧ ps.upcoming.head? = some ps.nextEventTime) ∨
    (ps.stalled = false ∧ ps.nextEventTime = endTime ∧ ps.upcoming = [] ∧ ps.uniformRemaining = 0) ∨
    (ps.stalled = true ∧ ps.nextEventTime = endTime ∧ 0 < ps.uniformRemaining + ps.upcoming.length)

theorem Extends.pattern (he : Extends endTime ps ps' new) : ps'.pattern = ps.pattern :=
  (congrArg PatternState.pattern he.frame :)

theorem Advanced.pattern {next : Time} (ha : Advanced endTime ps next ps' new) :
    ps'.pattern = ps.pattern :=
  (congrArg PatternState.pattern ha.frame :)

/-- Extending the schedule keeps the tally. -/
theorem Tallied.extends (ht : Tallied startTime endTime times ps)
    (he : Extends endTime ps ps' new) : Tallied startTime endTime times ps' := by
  have hm : ps'.uniformGlobalCountMode = true :=
    (congrArg uniformGlobalCountMode he.frame).trans ht.mode
  have hc := he.counted ht.mode
  refine ⟨ht.start_le, ?_, hm, ?_, ?_, ?_, ht.watermark.trans he.watermark, ?_⟩
  · rw [he.pattern]
    exact ht.rate
  · rw [he.upcoming, he.sampled, ← append_assoc, ht.scheduled]
  · rw [he.pattern, ← ht.counted, ← hc, he.sampled, length_append]
    push_cast
    ring
  · intro t hmem
    rw [he.sampled] at hmem
    rcases mem_append.1 hmem with hold | hn
    · exact ht.inRun t hold
    · refine ⟨ht.watermark.trans (he.late t hn), he.sound.inRun t ?_⟩
      rw [he.upcoming]
      exact mem_append_right _ hn
  · rw [he.stalled, he.nextEventTime, he.upcoming]
    rcases ht.place with ⟨hgo, hh⟩ | ⟨hgo, hend, hnil, hz⟩ | ⟨hgo, hend, _⟩
    · exact .inl ⟨hgo, by rw [head?_append, hh, Option.some_or]⟩
    · -- nothing is left to distribute, so the extension is empty
      have hr := he.sound.remaining_nonneg
      have hn : new = [] := length_eq_zero_iff.1 (by omega)
      subst hn
      refine .inr (.inl ⟨hgo, hend, by rw [hnil]; rfl, ?_⟩)
      simpa [hz] using hc
    · refine .inr (.inr ⟨hgo, hend, ?_⟩)
      rw [length_append]
      omega

/-- Going on to the next arrival, once one has been scheduled, keeps the tally. -/
theorem Tallied.advance (ht : Tallied startTime endTime times ps) {next last : Time}
    (hh : ps.upcoming.head? = some ps.nextEventTime) (hlt : ps.nextEventTime < endTime)
    (ha : Advanced endTime ps next ps' new) :
    Tallied startTime endTime (times ++ [ps.nextEventTime])
      { ps' with lastEventTime := last, nextEventTime := next } := by
  obtain ⟨rest, hup⟩ : ∃ rest, ps.upcoming = ps.nextEventTime :: rest := head?_eq_some_iff.1 hh
  have hgo : ps.stalled = false := by
    rcases ht.place with ⟨hgo, -⟩ | ⟨hgo, -⟩ | ⟨-, he, -⟩
    · exact hgo
    · exact hgo
    · exact absurd he hlt.ne
  have hm : ps'.uniformGlobalCountMode = true :=
    (congrArg uniformGlobalCountMode ha.frame).trans ht.mode
  have hc := ha.counted ht.mode
  have hu : ps'.upcoming = rest ++ new := by rw [ha.upcoming, hup, tail_cons]
  refine ⟨ht.start_le, ?_, hm, ?_, ?_, ?_, ht.watermark.trans ha.watermark, ?_⟩
  · show 0 < ps'.pattern.arrival.rateRPS
    rw [ha.pattern]
    exact ht.rate
  · show times ++ [ps.nextEventTime] ++ ps'.upcoming = ps'.sampled
    rw [hu, ha.sampled, ← ht.scheduled, hup]
    simp
  · show ps'.uniformRemaining + ps'.sampled.length =
      uniformTotal ps'.pattern.arrival.rateRPS (endTime - startTime)
    rw [ha.pattern, ← ht.counted, ← hc, ha.sampled, length_append]
    push_cast
    ring
  · show ∀ t ∈ ps'.sampled, startTime ≤ t ∧ t < endTime
    intro t hmem
    rw [ha.sampled] at hmem
    rcases mem_append.1 hmem with hold | hnew
    · exact ht.inRun t hold
    · refine ⟨ht.watermark.trans (ha.late t hnew), ha.sound.inRun t ?_⟩
      rw [hu]
      exact mem_append_right _ hnew
  · rcases ha.next with ⟨hn, hs⟩ | ⟨hnil, he, hs⟩
    · exact .inl ⟨hs.trans hgo, hn⟩
    · have hr := ha.sound.remaining_nonneg
      rw [hgo, Bool.false_or] at hs
      by_cases hl : ps'.uniformRemaining > 0
      · refine .inr (.inr ⟨hs.trans (decide_eq_true hl), he, ?_⟩)
        show 0 < ps'.uniformRemaining + ps'.upcoming.length
        rw [hnil]
        simpa using hl
      · exact .inr (.inl ⟨hs.trans (decide_eq_false hl), he, hnil, le_antisymm (not_lt.1 hl) hr⟩)

/-- A pattern that has begun its schedule at the start of the run is tallied. -/
theorem tallied_begun {ps₀ : PatternState} (hle : startTime ≤ endTime)
    (hra : 0 < ps.pattern.arrival.rateRPS) (hb : Begun endTime startTime false ps₀ ps)
    (hu : ps.uniform = true) (hsa : ps₀.sampled = [])
    (hs : ps₀.stalled = false) (hp : ps₀.pattern = ps.pattern) :
    Tallied startTime endTime [] ps := by
  have ha : ps.sampled = ps.upcoming := by rw [hb.sampled, hsa, nil_append]
  have hso := hb.fit.sound hu
  have hr := hso.remaining_nonneg
  refine ⟨hle, hra, hb.mode, ha.symm, ?_, fun t hm => ?_, hb.watermark, ?_⟩
  · have hc := hb.counted rfl
    rw [hp] at hc
    rw [ha, hc]
  · rw [ha] at hm
    exact ⟨hb.late t hm, hso.inRun t hm⟩
  · rcases hb.first with ⟨hh, hgo⟩ | ⟨hn, he, hgo⟩
    · exact .inl ⟨hgo.trans hs, hh⟩
    · rw [hs, Bool.false_or] at hgo
      by_cases hl : ps.uniformRemaining > 0
      · refine .inr (.inr ⟨hgo.trans (decide_eq_true hl), he, ?_⟩)
        rw [hn]
        simpa using hl
      · exact .inr (.inl ⟨hgo.trans (decide_eq_false hl), he, hn, le_antisymm (not_lt.1 hl) hr⟩)

/-! ### Generations -/

theorem PatternState.uniform_of_label (h : ps'.label = ps.label) : ps'.uniform = ps.uniform := by
  have hp : ps'.pattern = ps.pattern := congrArg Prod.fst h
  rw [uniform, hp, uniform]

/-- A generation that no guardrail error ends keeps the tally of its pattern. -/
theorem Generated.tallied (hf : b.ps.Fit endTime) (hu : b.ps.uniform = true)
    (ht : Tallied startTime endTime (scheduledTimes key b.log) b.ps)
    (hg : Generated fe standard key endTime limit b halted b')
    (hn : b'.state.eng.guardErr = none) :
    b'.ps.uniform = true ∧ Tallied startTime endTime (scheduledTimes key b'.log) b'.ps := by
  obtain ⟨_, ⟨-, hu₀, ht₀⟩, hl⟩ := hg.induction
    (P := fun b' => b'.ps.Fit endTime ∧ b'.ps.uniform = true ∧
      Tallied startTime endTime (scheduledTimes key b'.log) b'.ps) ⟨hf, hu, ht⟩
    fun b₁ b₂ hb he => by
      obtain ⟨hf₁, hu₁, ht₁⟩ := hb
      have hfit := (he.fit hf₁).1
      have hun := (uniform_of_label (he.label hf₁).1).trans hu₁
      obtain ⟨next, ps, drawn, hm, -, hadv, rfl⟩ := he
      rcases hf₁.advance hm hadv with ⟨hnot, -⟩ | ⟨-, _, ha⟩
      · cases hnot.symm.trans hu₁
      · have hlt := PatternState.lt_of_more hm
        refine ⟨hfit, hun, ?_⟩
        rw [show scheduledTimes key ((b₁.schedule key).move next ps drawn).log = _ from
          scheduledTimes_schedule key b₁]
        exact ht₁.advance (hf₁.head hu₁ hlt) hlt ha
  rcases hl with ⟨-, rfl, -⟩ | ⟨-, -, -, hgu⟩
  · exact ⟨hu₀, ht₀⟩
  · exact absurd hn hgu

/-- All uniform patterns are tallied. -/
def Simulation.AllTallied (s : Simulation) : Prop :=
  ∀ key ps, s.ws.patterns.get key = some ps → ps.uniform = true →
    Tallied s.ws.startTime s.ws.endTime (scheduledTimes key s.ws.log) ps

theorem generatePattern_tallied (hfit : s.AllFit) (ht : s.AllTallied)
    (hok : generatePattern fe standard fuel limit key s = .ok (halted, s'))
    (hn : s'.state.eng.guardErr = none) : s'.AllTallied := by
  rcases generatePattern_cases hok with ⟨-, rfl, -⟩ | ⟨ps, b, hps, hg, rfl⟩
  · exact ht
  intro key' ps' hps' hu'
  by_cases hk : key' = key
  · subst hk
    have heq : ({ b.ps with revised := none } : PatternState) = ps' :=
      Option.some.inj ((KeyMap.get_set_self ..).symm.trans hps')
    rw [← heq] at hu' ⊢
    have hf := hfit key' ps hps
    have hl := (hg.label (s.fit_batch fe limit hf).1).1.trans (s.label_batch fe limit hf).1
    have hu : ps.uniform = true := (uniform_of_label hl).symm.trans hu'
    rcases s.batch_cases fe hf limit with
      ⟨hnot, -⟩ | ⟨-, ps₁, drawn, new, hb, he, -⟩
    · cases hnot.symm.trans hu
    · rw [hb] at hg
      have hu₁ : ps₁.uniform = true := by rw [uniform, he.pattern]; exact hu
      have hta := (hg.tallied (hf.extends hu he) hu₁ ((ht key' ps hps hu).extends he) hn).2
      exact { hta with }
  · have hlog : scheduledTimes key' b.log = scheduledTimes key' s.ws.log := by
      rw [scheduledTimes, hg.keyLog_of_ne hk, log_batch, scheduledTimes]
    have hold := ht key' ps' ((KeyMap.get_set_of_ne hk).symm.trans hps') hu'
    show Tallied s.ws.startTime s.ws.endTime (scheduledTimes key' b.log) ps'
    rw [hlog]
    exact hold

/-! ### Runs -/

/-- Without updates all uniform patterns are tallied, as long as no guardrail error is latched. -/
theorem kept_tallied : Kept fe env Untouched fun s =>
    s.state.eng.guardErr = none → s.ws.realTimeMode = false → s.AllTallied where
  initial {state patterns drawn endTime realTime} hp hd hinit _ hmode key ps hps hu := by
    obtain ⟨_, hrow, -, hi⟩ := forall_initPatterns hinit key ps hps
    obtain ⟨_, hb, hsa, hst, hpa⟩ := hi.begun hu
    have hr : 0 < ps.pattern.arrival.rateRPS := by
      obtain ⟨_, hwl, rfl⟩ := mem_map.1 hrow
      rw [hi.pattern, WorkloadPattern.normalized_rateRPS]
      exact ((accepted_of_valid hp.valid).workload_row hwl).1
    rw [show realTime = false from hmode] at hb
    exact tallied_begun hd hr hb hu hsa hst
      (hpa.trans hi.pattern.symm)
  generate {s s' fuel} hfit _ _ hs hok hnone hmode := by
    obtain ⟨s₁, hs₁, hc, rfl⟩ := generate_induction
      (P := fun s₁ => s₁.state.eng.guardErr = none → s₁.ws.realTimeMode = false → s₁.AllTallied)
      hfit hs (fun hf₁ _ hs₁ hpa hn' hm' => by
        obtain ⟨hc, -, hg, -⟩ := generatePattern_spec hf₁ hpa
        exact generatePattern_tallied hf₁
          (hs₁ (hg hn').1 (hc.realTimeMode.symm.trans hm')) hpa hn') hok
    exact hs₁ hnone hmode
  horizon {s} t t' hs hnone hmode := by
    unfold Simulation.AllTallied
    rw [ws_scheduleGeneration] at hmode ⊢
    exact hs (guardErr_scheduleGeneration (s := s.setHorizon t') hnone) hmode
  quiet hq hs hnone := hs (hq.guardErr hnone)
  update hok hkey _ _ _ := nomatch hok.symm.trans hkey
  stop hs := hs

theorem roundHalfAway_nonneg {q : ℚ} (hq : 0 ≤ q) : 0 ≤ roundHalfAway q := by
  rw [roundHalfAway, if_neg (not_lt.2 hq)]
  exact Int.floor_nonneg.2 (by linarith)

theorem uniformTotal_eq {rate : ℚ} {d : Int} (hr : 0 < rate) (hd : 0 ≤ d) :
    uniformTotal rate d = if roundHalfAway (rate * durationToSeconds d) < 2 ^ 63 then
      roundHalfAway (rate * durationToSeconds d) else 0 := by
  have hs : 0 ≤ durationToSeconds d := by
    exact div_nonneg (Int.cast_nonneg hd) (by norm_num [second])
  have hp := roundHalfAway_nonneg (mul_nonneg hr.le hs)
  rw [uniformTotal, toInt64_intCast]
  split_ifs <;> omega

/-- The loop over the arrivals of a uniform pattern ends within as many turns as arrivals are in its
schedule or left to distribute. -/
theorem generateLoop_uniform (hf : b.ps.Fit endTime) (hu : b.ps.uniform = true)
    (hmo : b.ps.uniformGlobalCountMode = true) {n : Nat}
    (hn : b.ps.upcoming.length + b.ps.uniformRemaining ≤ n) :
    ∃ r, generateLoop fe standard key endTime limit n b = .ok r := by
  induction n generalizing b with
  | zero =>
    rw [generateLoop]
    split_ifs with hm
    · have hr := (hf.sound hu).remaining_nonneg
      have hh := hf.head hu (PatternState.lt_of_more hm)
      rw [length_eq_zero_iff.1 (by omega : b.ps.upcoming.length = 0)] at hh
      cases hh
    · exact ⟨_, rfl⟩
  | succ n ih =>
    rw [generateLoop]
    split
    · rename_i hm
      split
      · exact ⟨_, rfl⟩
      rename_i hg
      have hh := hf.head hu (PatternState.lt_of_more hm)
      obtain ⟨rest, hup⟩ : ∃ rest, b.ps.upcoming = b.ps.nextEventTime :: rest :=
        head?_eq_some_iff.1 hh
      obtain ⟨next, ps', drawn, _, hadv, ha⟩ := advanceToNextArrival_uniform fe
        (hf.sound hu) hu (by rw [hup]; exact cons_ne_nil _ _) b.ps.nextEventTime b.drawn
      have he : Emits fe standard key endTime limit b ((b.schedule key).move next ps' drawn) :=
        ⟨next, ps', drawn, hm, fun hs => by simpa [hs] using hg, hadv, rfl⟩
      rw [hadv]
      refine ih (he.fit hf).1
        ((uniform_of_label (he.label hf).1).trans hu) ?_ ?_
      · exact (congrArg uniformGlobalCountMode ha.frame).trans hmo
      · -- one arrival has left the schedule, and what was distributed has joined it
        have hc := ha.counted hmo
        show (ps'.upcoming.length : Int) + ps'.uniformRemaining ≤ n
        rw [ha.upcoming, hup, tail_cons, length_append]
        rw [hup, length_cons] at hn
        omega
    · exact ⟨_, rfl⟩

/-- The generation for a uniform pattern ends. -/
theorem generatePattern_uniform (hfit : s.AllFit) (hps : s.ws.patterns.get key = some ps)
    (hu : ps.uniform = true) (ht : Tallied s.ws.startTime s.ws.endTime times ps) (limit : Time)
    (hn : uniformTotal ps.pattern.arrival.rateRPS (s.ws.endTime - s.ws.startTime) ≤ fuel) :
    ∃ r, generatePattern fe standard fuel limit key s = .ok r := by
  have hf := hfit key ps hps
  rcases s.batch_cases fe hf limit with ⟨hnot, -⟩ | ⟨-, ps', _, _, hb, he, -⟩
  · cases hnot.symm.trans hu
  have hta := ht.extends he
  have hu' : ps'.uniform = true := by rw [uniform, he.pattern]; exact hu
  have hl : ∃ r, generateLoop fe standard key s.ws.endTime limit fuel (s.batch fe limit ps) =
      .ok r := by
    rw [hb]
    refine generateLoop_uniform (hf.extends hu he) hu' hta.mode ?_
    have hle := congrArg length hta.scheduled
    have hc := hta.counted
    rw [he.pattern] at hc
    rw [length_append] at hle
    show (ps'.upcoming.length : Int) + ps'.uniformRemaining ≤ fuel
    omega
  obtain ⟨⟨halted, b⟩, hl⟩ := hl
  refine ⟨(halted, s.store key b), ?_⟩
  simp [generatePattern, hps, hf.active, hl]

/-- Arrivals at uniform times, at the given rate. -/
def uniformly (rate : ℚ) : Env :=
  .still (oneRow { type := "uniform", rateRPS := rate })

end SimCore.Workload
