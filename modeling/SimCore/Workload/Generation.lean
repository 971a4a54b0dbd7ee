import SimCore.Workload.State

/-!
# What a generation does

The loop over the arrivals of a pattern schedules one arrival per turn. `Emits` is one turn that
goes on, `Generated` the whole loop; every property of a generation is derived from them.

## Main definitions

* `Emits`: a turn of the loop over the arrivals of a pattern
* `Generated`: the loop, which ends before the limit or is ended by a guardrail error
* `PatternState.Fit`: what holds of a pattern between two actions

## Main results

* `generatePattern_cases`: a generation for a pattern is a run of the loop
* `Emits.fit`: a turn keeps the pattern fit, and goes on to an arrival that is not earlier
* `generateEach_induction`: what every generation for a pattern keeps, the whole generation keeps
-/

namespace SimCore.Workload

open Config Simd PatternState

variable {fe : Feed} {standard halted : Bool} {key : String} {endTime limit : Time} {fuel : Nat}
  {b b' : Batch} {s s' : Simulation} {ps ps' : PatternState} {h : History} {new : List Time}

/-! ### Turns of the loop -/

/-- A turn of the loop over the arrivals of a pattern that goes on. -/
def Emits (fe : Feed) (standard : Bool) (key : String) (endTime limit : Time) (b b' : Batch) :
    Prop :=
  ∃ next ps drawn, b.ps.more endTime limit = true ∧
    (standard = true → (b.schedule key).state.eng.guardErr = none) ∧
    advanceToNextArrival fe endTime b.ps b.ps.nextEventTime b.drawn = .ok ((next, ps), drawn) ∧
    b' = (b.schedule key).move next ps drawn

/-- The loop over the arrivals of a pattern. -/
inductive Generated (fe : Feed) (standard : Bool) (key : String) (endTime limit : Time)
    (b : Batch) : Bool → Batch → Prop
  | done {b' : Batch} (h : Relation.ReflTransGen (Emits fe standard key endTime limit) b b')
      (hm : b'.ps.more endTime limit = false) : Generated fe standard key endTime limit b false b'
  /-- A guardrail error ends the whole generation. -/
  | halted {b' : Batch} (h : Relation.ReflTransGen (Emits fe standard key endTime limit) b b')
      (hm : b'.ps.more endTime limit = true) (hs : standard = true)
      (hg : (b'.schedule key).state.eng.guardErr ≠ none) :
      Generated fe standard key endTime limit b true (b'.schedule key)

theorem Generated.head (he : Emits fe standard key endTime limit b b') {b'' : Batch}
    (hg : Generated fe standard key endTime limit b' halted b'') :
    Generated fe standard key endTime limit b halted b'' := by
  cases hg with
  | done h hm => exact .done (h.head he) hm
  | halted h hm hs hg => exact .halted (h.head he) hm hs hg

theorem generateLoop_generated {n : Nat}
    (hok : generateLoop fe standard key endTime limit n b = .ok (halted, b')) :
    Generated fe standard key endTime limit b halted b' := by
  induction n generalizing b with
  | zero =>
    rw [generateLoop] at hok
    split at hok
    · cases hok
    · rename_i hm
      cases hok
      exact .done .refl (by simpa using hm)
  | succ n ih =>
    rw [generateLoop] at hok
    split at hok
    · rename_i hm
      split_ifs at hok with hg
      · cases hok
        rw [Bool.and_eq_true, Option.isSome_iff_ne_none] at hg
        exact .halted .refl hm hg.1 hg.2
      · split at hok
        · cases hok
        · rename_i next ps drawn ha
          refine .head ⟨next, ps, drawn, hm, fun hs => ?_, ha, rfl⟩ (ih hok)
          simpa [hs] using hg
    · rename_i hm
      cases hok
      exact .done .refl (by simpa using hm)

/-- What every turn keeps, and the last scheduling as well, the loop keeps. -/
theorem Generated.induction {P : Batch → Prop} (hb : P b)
    (hem : ∀ b b', P b → Emits fe standard key endTime limit b b' → P b')
    (hg : Generated fe standard key endTime limit b halted b') :
    ∃ b₀, P b₀ ∧ (halted = false ∧ b' = b₀ ∧ b₀.ps.more endTime limit = false ∨
      halted = true ∧ b' = b₀.schedule key ∧ b₀.ps.more endTime limit = true ∧
        b'.state.eng.guardErr ≠ none) := by
  have hr : ∀ {b₀}, Relation.ReflTransGen (Emits fe standard key endTime limit) b b₀ → P b₀ := by
    intro b₀ h
    induction h with
    | refl => exact hb
    | tail _ he ih => exact hem _ _ ih he
  cases hg with
  | done h hm => exact ⟨b', hr h, .inl ⟨rfl, rfl, hm⟩⟩
  | halted h hm _ hg => exact ⟨_, hr h, .inr ⟨rfl, rfl, hm, hg⟩⟩

/-! ### Patterns between two actions -/

/-- What holds of a pattern between two actions. A uniform pattern is at the first arrival of its
schedule, or at the end of the run. -/
structure PatternState.Fit (endTime : Time) (ps : PatternState) : Prop where
  active : ps.active = true
  uniform_lazy : ps.uniform = true → ps.uniformLazy = true
  sound : ps.uniform = true → ps.Sound endTime
  ready : ps.uniform = true → ps.upcoming.head? = some ps.nextEventTime ∨ ps.nextEventTime = endTime

/-- The schedule does not depend on the notes about a pattern. -/
theorem PatternState.Sound.settled (hs : ps.Sound endTime) :
    ({ ps with revised := none } : PatternState).Sound endTime :=
  { hs with }

/-- Before the end of the run, a uniform pattern is at the first arrival of its schedule. -/
theorem PatternState.Fit.head (hf : ps.Fit endTime) (hu : ps.uniform = true)
    (hlt : ps.nextEventTime < endTime) : ps.upcoming.head? = some ps.nextEventTime :=
  (hf.ready hu).resolve_right hlt.ne

theorem Extends.nextEventTime (he : Extends endTime ps ps' new) :
    ps'.nextEventTime = ps.nextEventTime :=
  (congrArg PatternState.nextEventTime he.frame :)

/-- Extending the schedule keeps a pattern fit. -/
theorem PatternState.Fit.extends (hf : ps.Fit endTime) (hu : ps.uniform = true)
    (he : Extends endTime ps ps' new) : ps'.Fit endTime where
  active := (congrArg PatternState.active he.frame).trans hf.active
  uniform_lazy _ := (congrArg uniformLazy he.frame).trans (hf.uniform_lazy hu)
  sound _ := he.sound
  ready _ := by
    rw [he.upcoming]
    refine (hf.ready hu).imp (fun hh => ?_) fun hend => ?_
    · rw [List.head?_append, hh, Option.some_or, he.nextEventTime]
    · rw [he.nextEventTime, hend]

/-- The arrival after the first one of a schedule is not before it. -/
theorem Advanced.le_next {first next : Time} (hs : ps.Sound endTime)
    (hh : ps.upcoming.head? = some first) (ha : Advanced endTime ps next ps' new) :
    first ≤ next := by
  obtain ⟨rest, hup⟩ : ∃ rest, ps.upcoming = first :: rest := List.head?_eq_some_iff.1 hh
  have hm : first ∈ ps.upcoming := by simp [hup]
  rcases ha.next with ⟨hn, -⟩ | ⟨-, rfl, -⟩
  · rw [ha.upcoming, hup, List.tail_cons] at hn
    rcases List.mem_append.1 (List.mem_of_mem_head? hn) with hr | hnew
    · exact List.rel_of_pairwise_cons (hup ▸ hs.sorted) hr
    · exact (hs.covered first hm).le.trans (ha.late next hnew)
  · exact (hs.inRun first hm).le

theorem PatternState.lt_of_more (hm : ps.more endTime limit = true) :
    ps.nextEventTime < endTime := by
  rw [PatternState.more, Bool.and_eq_true] at hm
  exact of_decide_eq_true hm.2

/-- How a fit pattern goes on from an arrival within the run. -/
theorem PatternState.Fit.advance (hf : b.ps.Fit endTime) (hm : b.ps.more endTime limit = true)
    {next : Time} {drawn : History}
    (hadv : advanceToNextArrival fe endTime b.ps b.ps.nextEventTime b.drawn =
      .ok ((next, ps), drawn)) :
    (b.ps.uniform = false ∧ ps = b.ps ∧ calculateNextArrivalTime fe.source b.ps.pattern.arrival
        b.ps.nextEventTime b.ps.epoch b.drawn = .ok (next, drawn)) ∨
      b.ps.uniform = true ∧ ∃ new, Advanced endTime b.ps next ps new := by
  cases hu : b.ps.uniform with
  | false =>
    rw [advanceToNextArrival, hu] at hadv
    simp only [Bool.not_false, if_true] at hadv
    split at hadv
    · rename_i hc
      cases hadv
      exact .inl ⟨rfl, rfl, hc⟩
    · cases hadv
  | true =>
    have hne : b.ps.upcoming ≠ [] := by
      intro hn
      have hh := hf.head hu (PatternState.lt_of_more hm)
      simp [hn] at hh
    obtain ⟨_, _, _, new, ha', ha⟩ := advanceToNextArrival_uniform fe
      (hf.sound hu) hu hne b.ps.nextEventTime b.drawn
    rw [ha'] at hadv
    cases hadv
    exact .inr ⟨rfl, new, ha⟩

/-- A turn of the loop keeps the pattern fit, and goes on to an arrival that is not earlier. -/
theorem Emits.fit (hf : b.ps.Fit endTime) (he : Emits fe standard key endTime limit b b') :
    b'.ps.Fit endTime ∧ b.ps.nextEventTime ≤ b'.ps.nextEventTime := by
  obtain ⟨next, ps, _, hm, -, hadv, rfl⟩ := he
  rcases hf.advance hm hadv with ⟨hu, rfl, hc⟩ | ⟨hu, _, ha⟩
  · have hnot : ¬ b.ps.uniform = true := by simp [hu]
    exact ⟨⟨hf.active, fun h => absurd h hnot, fun h => absurd h hnot, fun h => absurd h hnot⟩,
      le_calculateNextArrivalTime hc⟩
  · have hun : ps.uniformLazy = true :=
      (congrArg uniformLazy ha.frame).trans (hf.uniform_lazy hu)
    refine ⟨⟨(congrArg active ha.frame).trans hf.active, fun _ => hun,
      fun _ => { ha.sound with }, fun _ => ?_⟩,
      ha.le_next (hf.sound hu) (hf.head hu (PatternState.lt_of_more hm))⟩
    exact ha.next.imp (fun hn => hn.1) fun hn => hn.2.1

/-- The row and the target of a pattern. -/
def PatternState.label (ps : PatternState) : WorkloadPattern × String × String :=
  (ps.pattern, ps.serviceID, ps.endpointPath)

theorem Emits.label (hf : b.ps.Fit endTime) (he : Emits fe standard key endTime limit b b') :
    b'.ps.label = b.ps.label ∧ b'.ps.revisions = b.ps.revisions := by
  obtain ⟨_, _, _, hm, -, hadv, rfl⟩ := he
  rcases hf.advance hm hadv with ⟨_, rfl, -⟩ | ⟨_, _, ha⟩
  · exact ⟨rfl, rfl⟩
  · exact ⟨(congrArg label ha.frame :), (congrArg revisions ha.frame :)⟩

theorem Generated.label (hf : b.ps.Fit endTime)
    (hg : Generated fe standard key endTime limit b halted b') :
    b'.ps.label = b.ps.label ∧ b'.ps.revisions = b.ps.revisions := by
  obtain ⟨_, ⟨-, hl, hr⟩, hla⟩ := hg.induction
    (P := fun b' => b'.ps.Fit endTime ∧ b'.ps.label = b.ps.label ∧
      b'.ps.revisions = b.ps.revisions) ⟨hf, rfl, rfl⟩
    fun b₁ b₂ hb he => by
      obtain ⟨hfit, hl, hr⟩ := hb
      obtain ⟨hl', hr'⟩ := he.label hfit
      exact ⟨(he.fit hfit).1, hl'.trans hl, hr'.trans hr⟩
  rcases hla with ⟨-, rfl, -⟩ | ⟨-, rfl, -⟩
  · exact ⟨hl, hr⟩
  · exact ⟨hl, hr⟩

/-! ### Generation for one pattern -/

/-- The generation for a pattern starts from the pattern, extended if it is uniform. -/
theorem Simulation.batch_cases (s : Simulation) (fe : Feed) (hf : ps.Fit s.ws.endTime)
    (limit : Time) :
    ps.uniform = false ∧ s.batch fe limit ps = ⟨s.state, ps, s.ws.drawn, s.ws.log⟩ ∨
      ps.uniform = true ∧ ∃ ps' drawn new, s.batch fe limit ps = ⟨s.state, ps', drawn, s.ws.log⟩ ∧
        Extends s.ws.endTime ps ps' new ∧
        min limit s.ws.endTime ≤ ps'.uniformStreamWatermark := by
  unfold Simulation.batch PatternState.cover
  cases hu : ps.uniform with
  | false => exact .inl ⟨rfl, by simp⟩
  | true =>
    have hl := hf.uniform_lazy hu
    obtain ⟨new, he⟩ := extends_ensureUniformHorizon fe (hf.sound hu) limit s.ws.drawn
    have hc := covered_ensureUniformHorizon fe (hf.sound hu) hl limit s.ws.drawn
    rw [hl]
    exact .inr ⟨rfl, _, _, new, rfl, he, hc⟩

theorem Simulation.fit_batch (fe : Feed) (limit : Time) (hf : ps.Fit s.ws.endTime) :
    (s.batch fe limit ps).ps.Fit s.ws.endTime ∧
      (s.batch fe limit ps).ps.nextEventTime = ps.nextEventTime := by
  rcases s.batch_cases fe hf limit with ⟨-, heq⟩ | ⟨hu, _, _, _, heq, he, -⟩
  · rw [heq]
    exact ⟨hf, rfl⟩
  · rw [heq]
    exact ⟨hf.extends hu he, he.nextEventTime⟩

theorem Simulation.label_batch (fe : Feed) (limit : Time) (hf : ps.Fit s.ws.endTime) :
    (s.batch fe limit ps).ps.label = ps.label ∧
      (s.batch fe limit ps).ps.revisions = ps.revisions := by
  rcases s.batch_cases fe hf limit with ⟨-, heq⟩ | ⟨-, _, _, _, heq, he, -⟩
  · rw [heq]
    exact ⟨rfl, rfl⟩
  · rw [heq]
    exact ⟨(congrArg label he.frame :), (congrArg revisions he.frame :)⟩

/-- The generation for a pattern is a run of the loop. -/
theorem generatePattern_cases
    (hok : generatePattern fe standard fuel limit key s = .ok (halted, s')) :
    (halted = false ∧ s' = s ∧ ∀ ps, s.ws.patterns.get key = some ps → ps.active = false) ∨
      ∃ ps b, s.ws.patterns.get key = some ps ∧
        Generated fe standard key s.ws.endTime limit (s.batch fe limit ps) halted b ∧
        s' = s.store key b := by
  unfold generatePattern at hok
  split at hok
  · rename_i hn
    cases hok
    exact .inl ⟨rfl, rfl, by simp [hn]⟩
  · rename_i ps hps
    split_ifs at hok with ha
    · cases hok
      refine .inl ⟨rfl, rfl, fun ps' hps' => ?_⟩
      rw [hps] at hps'
      cases hps'
      simpa using ha
    · split at hok
      · cases hok
      · rename_i hl
        cases hok
        exact .inr ⟨ps, _, hps, generateLoop_generated hl, rfl⟩

/-- What every generation for a pattern keeps, the whole generation keeps; it comes to all patterns
unless a guardrail error ends it. -/
theorem generateEach_induction {P : List String → Simulation → Prop} {keys : List String}
    (hst : ∀ key rest s halted s', P (key :: rest) s →
      generatePattern fe standard fuel limit key s = .ok (halted, s') → P rest s')
    (hha : ∀ keys s, s.state.eng.guardErr ≠ none → P keys s → P [] s)
    (hs : P keys s) (hok : generateEach fe standard fuel limit keys s = .ok s') : P [] s' := by
  induction keys generalizing s with
  | nil =>
    cases hok
    exact hs
  | cons key rest ih =>
    rw [generateEach] at hok
    split at hok
    · cases hok
    · rename_i halted s₁ hp
      have hs₁ := hst key rest s halted s₁ hs hp
      split_ifs at hok with hh
      · cases hok
        refine hha rest s' ?_ hs₁
        rcases generatePattern_cases hp with ⟨hf, -⟩ | ⟨_, b, -, hg, rfl⟩
        · rw [hh] at hf
          cases hf
        · rw [hh] at hg
          cases hg with
          | halted h hm hs hg => exact hg
      · exact ih hs₁ hok

/-! ### What a pattern has scheduled -/

/-- The arrivals of one pattern among those scheduled. -/
def keyLog (key : String) (log : List (Time × ArrivalData)) : List (Time × ArrivalData) :=
  log.filter fun e => e.2.spec.map Prod.fst = some key

theorem keyLog_schedule_self (key : String) (b : Batch) : keyLog key (b.schedule key).log =
      (b.ps.nextEventTime, workloadArrivalEventData key b.ps) :: keyLog key b.log := by
  simp [keyLog, Batch.schedule, workloadArrivalEventData]

theorem keyLog_schedule_of_ne {key' : String} (h : key' ≠ key) (b : Batch) :
    keyLog key' (b.schedule key).log = keyLog key' b.log := by
  simp [keyLog, Batch.schedule, workloadArrivalEventData, Ne.symm h]

/-- Generating the arrivals of a pattern schedules none for another. -/
theorem Generated.keyLog_of_ne {key' : String} (h : key' ≠ key)
    (hg : Generated fe standard key endTime limit b halted b') :
    keyLog key' b'.log = keyLog key' b.log := by
  obtain ⟨b₀, hlog, hl⟩ := hg.induction
    (P := fun b' => keyLog key' b'.log = keyLog key' b.log) rfl
    fun b₁ b₂ hb he => by
      obtain ⟨_, _, _, -, -, -, rfl⟩ := he
      exact (keyLog_schedule_of_ne h b₁).trans hb
  rcases hl with ⟨-, rfl, -⟩ | ⟨-, rfl, -⟩
  · exact hlog
  · exact (keyLog_schedule_of_ne h b₀).trans hlog

theorem log_batch (s : Simulation) (ps : PatternState) : (s.batch fe limit ps).log = s.ws.log :=
  rfl

end SimCore.Workload
