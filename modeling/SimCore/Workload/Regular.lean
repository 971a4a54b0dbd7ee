import SimCore.Workload.System

/-!
# The course of a generator

Between two steps every pattern is fit, and in standard mode exactly one `WorkloadGenerate` event is
pending, at the horizon of the last generation, until the horizon is the end of the run or the
generator has been stopped.

## Main definitions

* `SameCourse`: a generation leaves everything but the patterns and the arrivals alone
* `Simulation.Regular`: what holds between two steps of every run

## Main results

* `generate_spec`: what a generation does
* `RunBy.regular`: every state that a run reaches is regular
-/

namespace SimCore.Workload

open Config Simd Protocol PatternState KeyMap

variable {fe : Feed} {env : Env} {standard halted : Bool} {key : String} {endTime limit : Time}
  {fuel : Nat} {b b' : Batch} {s s' s'' : Simulation} {state state' : State} {ps ps' : PatternState}
  {h h' : History} {realTime : Bool} {startTime : Time} {rows : List WorkloadPattern}

/-! ### Generations -/

/-- What a generation leaves alone. -/
structure SameCourse (s s' : Simulation) : Prop where
  now : s'.state.now = s.state.now
  due : dueTimes s'.state = dueTimes s.state
  startTime : s'.ws.startTime = s.ws.startTime
  endTime : s'.ws.endTime = s.ws.endTime
  realTimeMode : s'.ws.realTimeMode = s.ws.realTimeMode
  stopped : s'.ws.stopped = s.ws.stopped
  generatedHorizon : s'.ws.generatedHorizon = s.ws.generatedHorizon
  keys : s'.ws.patterns.keys = s.ws.patterns.keys

theorem SameCourse.refl (s : Simulation) : SameCourse s s :=
  ⟨rfl, rfl, rfl, rfl, rfl, rfl, rfl, rfl⟩

theorem SameCourse.trans (h₁ : SameCourse s s') (h₂ : SameCourse s' s'') : SameCourse s s'' :=
  ⟨h₂.now.trans h₁.now, h₂.due.trans h₁.due, h₂.startTime.trans h₁.startTime,
    h₂.endTime.trans h₁.endTime,
    h₂.realTimeMode.trans h₁.realTimeMode, h₂.stopped.trans h₁.stopped,
    h₂.generatedHorizon.trans h₁.generatedHorizon, h₂.keys.trans h₁.keys⟩

/-- Scheduling arrivals does not change the time or the pending generations, and does not clear a
guardrail error. -/
theorem Generated.course (hg : Generated fe standard key endTime limit b halted b') :
    b'.state.now = b.state.now ∧ dueTimes b'.state = dueTimes b.state ∧
      (b'.state.eng.guardErr = none → b.state.eng.guardErr = none) := by
  have hs : ∀ b₁ : Batch, (b₁.schedule key).state.now = b₁.state.now ∧
      dueTimes (b₁.schedule key).state = dueTimes b₁.state ∧
      ((b₁.schedule key).state.eng.guardErr = none → b₁.state.eng.guardErr = none) := fun b₁ =>
    ⟨now_scheduleOutside .., dueTimes_scheduleOutside (by simp) _, guardErr_scheduleOutside⟩
  obtain ⟨b₀, ⟨hn, hd, hgu⟩, hl⟩ := hg.induction
    (P := fun b' => b'.state.now = b.state.now ∧ dueTimes b'.state = dueTimes b.state ∧
      (b'.state.eng.guardErr = none → b.state.eng.guardErr = none)) ⟨rfl, rfl, id⟩
    fun b₁ b₂ hb he => by
      obtain ⟨_, _, _, -, -, -, rfl⟩ := he
      obtain ⟨hn, hd, hgu⟩ := hs b₁
      exact ⟨hn.trans hb.1, hd.trans hb.2.1, fun h => hb.2.2 (hgu h)⟩
  rcases hl with ⟨-, rfl, -⟩ | ⟨-, rfl, -⟩
  · exact ⟨hn, hd, hgu⟩
  · obtain ⟨hn', hd', hg'⟩ := hs b₀
    exact ⟨hn'.trans hn, hd'.trans hd, fun h => hgu (hg' h)⟩

/-- The pattern after a generation is fit, and done up to the limit unless a guardrail error has
ended the generation. -/
theorem Generated.fit (hf : b.ps.Fit endTime)
    (hg : Generated fe standard key endTime limit b halted b') :
    b'.ps.Fit endTime ∧ (b'.state.eng.guardErr = none → b'.ps.more endTime limit = false) := by
  obtain ⟨_, hfit, hl⟩ := hg.induction (P := fun b' => b'.ps.Fit endTime) hf
    fun b₁ b₂ hb he => (he.fit hb).1
  rcases hl with ⟨-, rfl, hm⟩ | ⟨-, rfl, -, hgu⟩
  · exact ⟨hfit, fun _ => hm⟩
  · exact ⟨hfit, fun hn => absurd hn hgu⟩

def Simulation.AllFit (s : Simulation) : Prop :=
  ∀ key ps, s.ws.patterns.get key = some ps → ps.Fit s.ws.endTime

/-- A pattern has been generated up to a limit, or to the end of the run. -/
def Simulation.DoneTo (s : Simulation) (limit : Time) (key : String) : Prop :=
  ∀ ps, s.ws.patterns.get key = some ps →
    ps.revised = none ∧ (ps.nextEventTime < s.ws.endTime → limit ≤ ps.nextEventTime)

theorem le_of_not_more (h : ps.more endTime limit = false) (hlt : ps.nextEventTime < endTime) :
    limit ≤ ps.nextEventTime := by
  rw [PatternState.more, Bool.and_eq_false_iff] at h
  rcases h with h | h
  · exact not_lt.1 (of_decide_eq_false h)
  · exact absurd hlt (of_decide_eq_false h)

section

variable (hfit : s.AllFit)
include hfit

/-- What the generation for one pattern does. -/
theorem generatePattern_spec
    (hok : generatePattern fe standard fuel limit key s = .ok (halted, s')) :
    SameCourse s s' ∧ s'.AllFit ∧
      (s'.state.eng.guardErr = none → s.state.eng.guardErr = none ∧ s'.DoneTo limit key) ∧
      ∀ key', key' ≠ key → s'.ws.patterns.get key' = s.ws.patterns.get key' := by
  rcases generatePattern_cases hok with ⟨-, rfl, hi⟩ | ⟨ps, b, hps, hg, rfl⟩
  · refine ⟨.refl _, hfit, fun h => ⟨h, fun ps hps => ?_⟩, fun _ _ => rfl⟩
    exact absurd (hi ps hps) (by simp [(hfit key ps hps).active])
  · obtain ⟨hnow, hdue, hgu⟩ := hg.course
    rw [state_batch] at hnow hdue hgu
    obtain ⟨hf', hd⟩ := hg.fit (s.fit_batch fe limit (hfit key ps hps)).1
    refine ⟨⟨hnow, hdue, rfl, rfl, rfl, rfl, rfl, keys_set_of_get hps⟩, ?_,
      fun hn => ⟨hgu hn, fun ps' hps' => ?_⟩, fun key' hne => get_set_of_ne hne⟩
    · exact forall_get_set (P := fun _ (ps : PatternState) => ps.Fit s.ws.endTime) hfit
        ⟨hf'.active, hf'.uniform_lazy, fun hu => hf'.sound hu |>.settled, hf'.ready⟩
    · have heq : ({ b.ps with revised := none } : PatternState) = ps' :=
        Option.some.inj ((get_set_self ..).symm.trans hps')
      rw [← heq]
      exact ⟨rfl, le_of_not_more (hd hn)⟩

/-- What the generation for every pattern keeps, a generation keeps. -/
theorem generate_induction {P : Simulation → Prop} (hs : P s)
    (hst : ∀ {key : String} {halted : Bool} {s₁ s₂ : Simulation}, s₁.AllFit → SameCourse s s₁ →
      P s₁ → generatePattern fe standard fuel limit key s₁ = .ok (halted, s₂) → P s₂)
    (hok : generate fe standard fuel limit s = .ok s') :
    ∃ s₁, P s₁ ∧ SameCourse s s₁ ∧
      s' = { s₁ with ws := { s₁.ws with ranges := s.ws.ranges + 1, covered := limit } } := by
  unfold generate at hok
  split at hok
  · cases hok
  rename_i s₁ he
  cases hok
  have hv : s₁.AllFit ∧ SameCourse s s₁ ∧ P s₁ :=
    generateEach_induction (P := fun _ s₁ => s₁.AllFit ∧ SameCourse s s₁ ∧ P s₁)
      (fun key rest s₂ halted s₃ hs h => by
        obtain ⟨hf₂, hc, hp⟩ := hs
        obtain ⟨hc', hf₃, -⟩ := generatePattern_spec hf₂ h
        exact ⟨hf₃, hc.trans hc', hst hf₂ hc hp h⟩)
      (fun _ _ _ h => h) ⟨hfit, .refl s, hs⟩ he
  exact ⟨s₁, hv.2.2, hv.2.1, rfl⟩

theorem generatePattern_label
    (hok : generatePattern fe standard fuel limit key s = .ok (halted, s')) :
    ∀ key' ps ps', s.ws.patterns.get key' = some ps → s'.ws.patterns.get key' = some ps' →
      ps'.label = ps.label := by
  intro key' ps ps' hps hps'
  rcases generatePattern_cases hok with ⟨-, rfl, -⟩ | ⟨ps₁, b, hps₁, hg, rfl⟩
  · rw [hps] at hps'
    cases hps'
    rfl
  · by_cases hk : key' = key
    · subst hk
      obtain rfl : ps₁ = ps := Option.some.inj (hps₁.symm.trans hps)
      have heq : ({ b.ps with revised := none } : PatternState) = ps' :=
        Option.some.inj ((get_set_self ..).symm.trans hps')
      have hf := hfit key' ps₁ hps
      rw [← heq]
      exact (hg.label (s.fit_batch fe limit hf).1).1.trans (s.label_batch fe limit hf).1
    · have hs := (get_set_of_ne hk).symm.trans hps'
      rw [hps] at hs
      cases hs
      rfl

theorem generate_label (hok : generate fe standard fuel limit s = .ok s') :
    ∀ key ps ps', s.ws.patterns.get key = some ps → s'.ws.patterns.get key = some ps' →
      ps'.label = ps.label := by
  obtain ⟨s₁, hs₁, -, rfl⟩ := generate_induction
    (P := fun s₁ => ∀ key ps ps', s.ws.patterns.get key = some ps →
      s₁.ws.patterns.get key = some ps' → ps'.label = ps.label) hfit
    (fun key ps ps' hps hps' => by
      rw [hps] at hps'
      cases hps'
      rfl)
    (fun {key halted s₁ s₂} hf₁ hc hs₁ hp key' ps ps₂ hps hps₂ => by
      have hm : key' ∈ s₁.ws.patterns.keys := hc.keys ▸ mem_keys_of_get hps
      obtain ⟨ps₁, hps₁⟩ := Option.isSome_iff_exists.1 ((s₁.ws.patterns.mem_keys key').1 hm)
      exact (generatePattern_label hf₁ hp key' ps₁ ps₂ hps₁ hps₂).trans
        (hs₁ key' ps ps₁ hps hps₁)) hok
  exact hs₁

theorem generate_spec (hok : generate fe standard fuel limit s = .ok s') :
    SameCourse s s' ∧ s'.AllFit ∧ s'.ws.covered = limit ∧ (s'.state.eng.guardErr = none →
        s.state.eng.guardErr = none ∧ ∀ key, s'.DoneTo limit key) := by
  unfold generate at hok
  split at hok
  · cases hok
  rename_i s₁ he
  cases hok
  -- every pattern that has been visited is done
  have hv : SameCourse s s₁ ∧ s₁.AllFit ∧ (s₁.state.eng.guardErr = none →
      s.state.eng.guardErr = none ∧
      ∀ key ∈ s.ws.patterns.keys, key ∉ ([] : List String) → s₁.DoneTo limit key) := by
    refine generateEach_induction (P := fun rest s₁ => SameCourse s s₁ ∧ s₁.AllFit ∧
      (s₁.state.eng.guardErr = none → s.state.eng.guardErr = none ∧
        ∀ key ∈ s.ws.patterns.keys, key ∉ rest → s₁.DoneTo limit key)) ?_ ?_
      ⟨.refl s, hfit, fun h => ⟨h, ?_⟩⟩ he
    · rintro key _ s₂ _ _ ⟨hc, hf₂, hd⟩ hp
      obtain ⟨hc', hf₃, hg, hs⟩ := generatePattern_spec hf₂ hp
      refine ⟨hc.trans hc', hf₃, fun hn => ?_⟩
      obtain ⟨hn₂, hk⟩ := hg hn
      obtain ⟨hn₀, hd⟩ := hd hn₂
      refine ⟨hn₀, fun key' hm hr => ?_⟩
      by_cases heq : key' = key
      · exact heq ▸ hk
      · have hold := hd key' hm (by simp [heq, hr])
        intro ps hps
        rw [hs key' heq] at hps
        rw [hc'.endTime]
        exact hold ps hps
    · rintro keys _ hg ⟨hc, hf₂, -⟩
      exact ⟨hc, hf₂, fun hn => absurd hn hg⟩
    · intro key hm hnot
      exact absurd ((fe.order_perm _ _).mem_iff.2 hm) hnot
  obtain ⟨hc, hf₁, hd⟩ := hv
  refine ⟨{ hc with }, hf₁, rfl, fun hn => ⟨(hd hn).1, fun key ps hps => ?_⟩⟩
  have hm : key ∈ s.ws.patterns.keys := hc.keys ▸ mem_keys_of_get hps
  exact (hd hn).2 key hm (by simp) ps hps

end

/-! ### Uniform patterns that begin their schedule -/

theorem uniformTotal_nonneg (rate : ℚ) (d : Int) : 0 ≤ uniformTotal rate d := by
  unfold uniformTotal
  simp only
  split <;> omega

theorem uniformCursor_ensureLoop {coverThrough : Time} (n : Nat) :
    (ensureLoop fe endTime coverThrough n ps h).1.uniformCursor = ps.uniformCursor := by
  induction n generalizing ps h with
  | zero => rfl
  | succ _ ih =>
    rw [ensureLoop]
    simp only
    generalize (if ps.uniformStreamWatermark + eventGenerationLookaheadWindow > endTime then endTime
      else ps.uniformStreamWatermark + eventGenerationLookaheadWindow) = chunkEnd
    split
    · split
      · exact ih
      · rfl
    · rfl

theorem uniformCursor_compactUniformSchedule (hz : ps.uniformCursor = 0) :
    (compactUniformSchedule ps).uniformCursor = 0 := by
  unfold compactUniformSchedule
  split
  · exact hz
  · split <;> rfl

theorem uniformCursor_ensureUniformHorizon {coverThrough : Time} (hz : ps.uniformCursor = 0) :
    (ensureUniformHorizon fe endTime ps coverThrough h).1.uniformCursor = 0 := by
  unfold ensureUniformHorizon
  split
  · exact hz
  · exact uniformCursor_compactUniformSchedule ((uniformCursor_ensureLoop _).trans hz)

/-- A uniform pattern has begun its schedule at a time. -/
structure Begun (endTime now : Time) (realTime : Bool) (ps ps' : PatternState) : Prop where
  label : ps'.label = ps.label
  fit : ps'.Fit endTime
  revisions : ps'.revisions = ps.revisions
  revised : ps'.revised = ps.revised
  mode : ps'.uniformGlobalCountMode = !realTime
  watermark : now ≤ ps'.uniformStreamWatermark
  sampled : ps'.sampled = ps.sampled ++ ps'.upcoming
  late : ∀ t ∈ ps'.upcoming, now ≤ t
  counted : realTime = false → ps'.uniformRemaining + ps'.upcoming.length =
    uniformTotal ps.pattern.arrival.rateRPS (endTime - now)
  first : ps'.upcoming.head? = some ps'.nextEventTime ∧ ps'.stalled = ps.stalled ∨
    ps'.upcoming = [] ∧ ps'.nextEventTime = endTime ∧
      ps'.stalled = (ps.stalled || decide (ps'.uniformRemaining > 0))

theorem begun_begin (fe : Feed) (endTime now : Time) (realTime : Bool) (ha : ps.active = true)
    (h : History) :
    Begun endTime now realTime ps (ps.begin fe endTime now realTime h).1 := by
  -- the pattern before the lookahead window is covered
  obtain ⟨ps₀, hps₀⟩ : ∃ ps₀ : PatternState, ps₀ = { ps with
    epoch := now, uniformTimes := [], uniformCursor := 0, uniformLazy := true
    uniformStreamWatermark := now, uniformGlobalCountMode := !realTime
    uniformRemaining := if realTime then 0 else uniformTotal ps.pattern.arrival.rateRPS
      (endTime - now) } := ⟨_, rfl⟩
  have hup₀ : ps₀.upcoming = [] := by simp [hps₀, upcoming]
  have hs : ps₀.Sound endTime := by
    refine ⟨by simp [hps₀], by simp [hup₀], by simp [hup₀], by simp [hup₀], ?_⟩
    rw [hps₀]
    split
    · exact le_rfl
    · exact uniformTotal_nonneg _ _
  obtain ⟨new, he⟩ := extends_ensureUniformHorizon fe hs
    (now + eventGenerationLookaheadWindow) h
  have hc : (ensureUniformHorizon fe endTime ps₀ (now + eventGenerationLookaheadWindow)
      h).1.uniformCursor = 0 := uniformCursor_ensureUniformHorizon (by rw [hps₀])
  unfold begin
  simp only [← hps₀]
  generalize ensureUniformHorizon fe endTime ps₀ (now + eventGenerationLookaheadWindow) h = r
    at he hc
  obtain ⟨ps₁, _⟩ := r
  have hup₁ : ps₁.upcoming = new := by rw [he.upcoming, hup₀, List.nil_append]
  have hh : ps₁.uniformTimes.head? = ps₁.upcoming.head? := by
    rw [upcoming, hc, List.drop_zero]
  subst hps₀
  -- what holds whatever the next arrival is
  have hb : ∀ {next : Time} {stalled : Bool},
      (ps₁.upcoming.head? = some next ∧ stalled = ps₁.stalled ∨ ps₁.upcoming = [] ∧
        next = endTime ∧ stalled = (ps₁.stalled || decide (ps₁.uniformRemaining > 0))) →
      Begun endTime now realTime ps { ps₁ with nextEventTime := next, stalled := stalled } :=
    fun hn =>
    { label := (congrArg label he.frame :)
      fit := ⟨(congrArg active he.frame).trans ha,
        fun _ => (congrArg uniformLazy he.frame :), fun _ => { he.sound with },
        fun _ => hn.imp And.left fun h => h.2.1⟩
      revisions := (congrArg revisions he.frame :)
      revised := (congrArg revised he.frame :)
      mode := (congrArg uniformGlobalCountMode he.frame :)
      watermark := he.watermark
      sampled := he.sampled.trans (congrArg _ hup₁.symm)
      late := fun t ht => he.late t (hup₁ ▸ ht)
      counted := fun hr => by
        subst hr
        exact hup₁ ▸ he.counted rfl
      first := by rw [← he.stalled]; exact hn }
  rw [hh]
  cases hfirst : ps₁.upcoming.head? with
  | some => exact hb (.inl ⟨hfirst, rfl⟩)
  | none => exact hb (.inr ⟨List.head?_eq_none_iff.1 hfirst, rfl, rfl⟩)

theorem Begun.le_next {now : Time} {ps' : PatternState} (hb : Begun endTime now realTime ps ps')
    (hlt : ps'.nextEventTime < endTime) : now ≤ ps'.nextEventTime := by
  rcases hb.first with ⟨hh, -⟩ | ⟨-, he, -⟩
  · exact hb.late _ (List.mem_of_mem_head? hh)
  · exact absurd he hlt.ne

/-! ### Start -/

/-- The first state of the pattern of a row. -/
structure Initialised (startTime endTime : Time) (realTime : Bool) (row : WorkloadPattern)
    (ps : PatternState) : Prop where
  pattern : ps.pattern = row
  target : Interaction.parseDownstreamTarget row.target = .ok (ps.serviceID, ps.endpointPath)
  fit : ps.Fit endTime
  revisions : ps.revisions = []
  revised : ps.revised = none
  next : ps.nextEventTime < endTime → startTime ≤ ps.nextEventTime
  begun : ps.uniform = true → ∃ ps₀ : PatternState, Begun endTime startTime realTime ps₀ ps ∧
    ps₀.sampled = [] ∧ ps₀.stalled = false ∧ ps₀.pattern = row

theorem initialised_initPattern {row : WorkloadPattern}
    (hok : initPattern fe startTime endTime realTime row h = .ok (ps, h')) :
    Initialised startTime endTime realTime row ps := by
  unfold initPattern at hok
  split at hok
  · cases hok
  rename_i serviceID endpointPath ht
  simp only at hok
  split_ifs at hok with hu
  · -- a uniform pattern
    have hpa := Except.ok.inj hok
    have hb := begun_begin fe endTime startTime realTime (by rfl : ({
      pattern := row, serviceID := serviceID, endpointPath := endpointPath, epoch := startTime
      lastEventTime := startTime, nextEventTime := 0
      uniformGlobalCountMode := !realTime } : PatternState).active = true) h
    rw [hpa] at hb
    have hl := hb.label
    simp only [label, Prod.mk.injEq] at hl
    obtain ⟨hp, hs, hpath⟩ := hl
    exact ⟨hp, by rw [hs, hpath, ht], hb.fit, hb.revisions, hb.revised,
      hb.le_next, fun _ => ⟨_, hb, rfl, rfl, rfl⟩⟩
  · split at hok
    · cases hok
    · rename_i hf
      cases hok
      exact ⟨rfl, ht, ⟨rfl, fun h => absurd h hu, fun h => absurd h hu, fun h => absurd h hu⟩,
        rfl, rfl, fun _ => le_calculateNextArrivalTime hf, fun h => absurd h hu⟩

/-- The keys of the rows with the states of their patterns. -/
def patternEntries (rows : List WorkloadPattern) (states : List PatternState) :
    List (String × PatternState) :=
  (rows.map fun row => patternKey row.source row.target).zip states

/-- The patterns are written one after the other. -/
theorem initPatterns_spec {m m' : KeyMap String PatternState}
    (hok : initPatterns fe startTime endTime realTime rows m h = .ok (m', h')) :
    ∃ states, List.Forall₂ (Initialised startTime endTime realTime) rows states ∧
      m' = (patternEntries rows states).foldl (fun m e => m.set e.1 e.2) m := by
  induction rows generalizing m h with
  | nil =>
    cases hok
    exact ⟨[], .nil, rfl⟩
  | cons _ _ ih =>
    rw [initPatterns] at hok
    split at hok
    · cases hok
    · rename_i ps _ hi
      obtain ⟨states, ha, hm⟩ := ih hok
      exact ⟨ps :: states, .cons (initialised_initPattern hi) ha, hm⟩

/-- What holds of the first state of every pattern holds of every pattern after the start. -/
theorem forall_initPatterns {m : KeyMap String PatternState}
    (hok : initPatterns fe startTime endTime realTime rows .empty h = .ok (m, h')) :
    ∀ key ps, m.get key = some ps → ∃ row ∈ rows, key = patternKey row.source row.target ∧
      Initialised startTime endTime realTime row ps := by
  obtain ⟨_, ha, rfl⟩ := initPatterns_spec hok
  clear hok
  intro key ps hg
  replace hg := mem_of_get_ofEntries hg
  induction ha with
  | nil => cases hg
  | cons hr _ ih =>
    rcases List.mem_cons.1 hg with heq | hg
    · cases heq
      exact ⟨_, List.mem_cons_self, rfl, hr⟩
    · obtain ⟨row, hm, hk, hi⟩ := ih hg
      exact ⟨row, List.mem_cons_of_mem _ hm, hk, hi⟩

/-! ### Updates -/

/-- A pattern has been updated. -/
structure Revised (s : Simulation) (ps ps' : PatternState) : Prop where
  fit : ps'.Fit s.ws.endTime
  revisions : ps'.revisions = ps.revisions ++ [s.state.now]
  revised : ps'.revised = some s.state.now
  next : ps'.nextEventTime < s.ws.endTime → s.state.now ≤ ps'.nextEventTime

/-- The pattern under a key has been updated. -/
def Revises (s : Simulation) (key : String) (s' : Simulation) : Prop :=
  ∃ ps ps' drawn, s.ws.patterns.get key = some ps ∧ s' = s.revise key ps' drawn ∧ Revised s ps ps'

/-- A noted pattern begins its schedule, or goes on at once. -/
theorem revises_note {ps₀ ps₁ : PatternState} (hps : s.ws.patterns.get key = some ps)
    (h₀ : ps₀.active = true ∧ ps₀.revisions = ps.revisions ++ [s.state.now] ∧
      ps₀.revised = some s.state.now)
    (h₁ : ps₁.uniform = ps₀.uniform ∧ ps₁.active = ps₀.active ∧ ps₁.revisions = ps₀.revisions ∧
      ps₁.revised = ps₀.revised ∧ ps₁.nextEventTime = s.state.now)
    (hok : (if ps₀.uniform = true then
        .ok (s.revise key (ps₀.begin fe s.ws.endTime s.state.now s.ws.realTimeMode s.ws.drawn).1
          (ps₀.begin fe s.ws.endTime s.state.now s.ws.realTimeMode s.ws.drawn).2)
      else .ok (s.revise key ps₁ s.ws.drawn) : Except Halt Simulation) = .ok s') :
    Revises s key s' := by
  obtain ⟨ha, hr, hre⟩ := h₀
  obtain ⟨hun, ha₁, hr₁, hre₁, hn₁⟩ := h₁
  split_ifs at hok with hu
  · have hb := begun_begin fe s.ws.endTime s.state.now s.ws.realTimeMode ha s.ws.drawn
    exact ⟨ps, _, _, hps, (Except.ok.inj hok).symm, hb.fit, hb.revisions.trans hr,
      hb.revised.trans hre, hb.le_next⟩
  · rw [← hun] at hu
    exact ⟨ps, _, _, hps, (Except.ok.inj hok).symm, ⟨ha₁.trans ha, fun h => absurd h hu,
      fun h => absurd h hu, fun h => absurd h hu⟩, hr₁.trans hr,
      hre₁.trans hre, fun _ => hn₁.ge⟩

theorem updateRate_spec (hfit : s.AllFit) {rate : ℚ} (hok : updateRate fe key rate s = .ok s') :
    Revises s key s' := by
  unfold updateRate at hok
  split at hok
  · cases hok
  split at hok
  · cases hok
  rename_i ps hps
  refine revises_note hps ?_ ?_ hok
  · exact ⟨(hfit key ps hps).active, rfl, rfl⟩
  · exact ⟨rfl, rfl, rfl, rfl, rfl⟩

theorem updatePattern_spec (hfit : s.AllFit) {pattern : WorkloadPattern}
    (hok : updatePattern fe key pattern s = .ok s') : Revises s key s' := by
  unfold updatePattern at hok
  split at hok
  · cases hok
  rename_i ps hps
  split at hok
  · cases hok
  refine revises_note hps ?_ ?_ hok
  · exact ⟨(hfit key ps hps).active, rfl, rfl⟩
  · exact ⟨rfl, rfl, rfl, rfl, rfl⟩

/-! ### Regular states -/

/-- What holds between two steps of every run. -/
structure Simulation.Regular (s : Simulation) : Prop where
  fit : s.AllFit
  covered_le : s.ws.covered ≤ s.ws.endTime
  horizon : s.ws.realTimeMode = false → s.ws.generatedHorizon = s.ws.covered
  due : s.ws.realTimeMode = false →
    dueTimes s.state = [s.ws.covered] ∧ s.ws.covered < s.ws.endTime ∨
    dueTimes s.state = [] ∧ (s.ws.covered = s.ws.endTime ∨ s.ws.stopped = true)
  noDue : s.ws.realTimeMode = true → dueTimes s.state = []

theorem capTime_le (endTime horizon : Time) : capTime endTime horizon ≤ endTime := by
  unfold capTime
  split_ifs with h
  · exact le_rfl
  · exact not_lt.1 h

theorem capTime_of_le {horizon : Time} (h : horizon ≤ endTime) :
    capTime endTime horizon = horizon :=
  if_neg (not_lt.2 h)

theorem lt_capTime {t : Time} (ht : t < endTime) :
    t < capTime endTime (t + eventGenerationLookaheadWindow) := by
  unfold capTime
  split
  · exact ht
  · exact lt_add_of_pos_right t (by decide)

/-- A generation in standard mode, before the end of the run. -/
theorem generateUpToHorizon_eq (hn : s.state.now < s.ws.endTime) (hs : s.ws.stopped = false)
    (hle : limit ≤ s.ws.endTime) :
    generateUpToHorizon fe fuel limit s = generate fe true fuel limit s := by
  simp [generateUpToHorizon, hn, hs, capTime_of_le hle]

theorem guardErr_scheduleGeneration {horizon : Time}
    (h : (scheduleGeneration horizon s).state.eng.guardErr = none) :
    s.state.eng.guardErr = none := by
  unfold scheduleGeneration at h
  split at h
  · exact guardErr_scheduleOutside h
  · exact h

/-- How far a generation at the present time goes. -/
def Simulation.nextLimit (s : Simulation) : Time :=
  capTime s.ws.endTime (s.state.now + eventGenerationLookaheadWindow)

theorem Simulation.nextLimit_le (s : Simulation) : s.nextLimit ≤ s.ws.endTime :=
  capTime_le ..

theorem generateNextEvents_cases (hok : generateNextEvents fe fuel s = .ok s') :
    s.ws.endTime < s.state.now ∧ s' = s ∨
      s.state.now ≤ s.ws.endTime ∧ generate fe false fuel s.nextLimit s = .ok s' := by
  unfold generateNextEvents at hok
  split_ifs at hok with ho
  · cases hok
    exact .inl ⟨ho, rfl⟩
  · exact .inr ⟨not_lt.1 ho, hok⟩

/-- What the handler of a `WorkloadGenerate` event before the end of the run does. -/
theorem handleWorkloadGenerate_cases (hlt : s.state.now < s.ws.endTime)
    (hok : handleWorkloadGenerate fe fuel s = .ok s') :
    s.ws.stopped = true ∧ s' = s ∨ s.ws.stopped = false ∧ ∃ s₁,
      generate fe true fuel s.nextLimit s = .ok s₁ ∧
      s' = scheduleGeneration s.nextLimit (s₁.setHorizon
        (if s.nextLimit > s₁.ws.generatedHorizon then s.nextLimit
          else s₁.ws.generatedHorizon)) := by
  unfold handleWorkloadGenerate at hok
  split_ifs at hok with hs
  · cases hok
    exact .inl ⟨hs, rfl⟩
  · simp only at hok
    split at hok
    · cases hok
    · rename_i s₁ hg
      rw [generateUpToHorizon_eq hlt (by simpa using hs) (capTime_le ..)] at hg
      cases hok
      exact .inr ⟨by simpa using hs, s₁, hg, rfl⟩

/-- What the start of a generator does: it initialises the patterns and generates up to the first
horizon, unless the run is over before it begins. -/
theorem start_cases (hd : state.now ≤ endTime)
    (hok : start fe fuel rows endTime realTime state = .ok s) :
    ∃ patterns drawn,
      initPatterns fe state.now endTime realTime rows .empty [] = .ok (patterns, drawn) ∧
      (realTime = true ∧ generate fe false fuel
            (Simulation.initial state patterns drawn endTime realTime).nextLimit
            (.initial state patterns drawn endTime realTime) = .ok s ∨
        realTime = false ∧ ∃ s₁, (state.now < endTime ∧ generate fe true fuel
              (Simulation.initial state patterns drawn endTime realTime).nextLimit
              (.initial state patterns drawn endTime realTime) = .ok s₁ ∨
            state.now = endTime ∧ s₁ = .initial state patterns drawn endTime realTime) ∧
          s = scheduleGeneration
            (Simulation.initial state patterns drawn endTime realTime).nextLimit (s₁.setHorizon
              (Simulation.initial state patterns drawn endTime realTime).nextLimit)) := by
  unfold start at hok
  split at hok
  · cases hok
  rename_i patterns drawn hi
  refine ⟨patterns, drawn, hi, ?_⟩
  obtain ⟨s₀, hs₀⟩ : ∃ s₀, s₀ = Simulation.initial state patterns drawn endTime realTime := ⟨_, rfl⟩
  have hn : s₀.state.now = state.now := by rw [hs₀]; rfl
  have he : s₀.ws.endTime = endTime := by rw [hs₀]; rfl
  have hl : s₀.nextLimit = capTime endTime (state.now + eventGenerationLookaheadWindow) := by
    rw [Simulation.nextLimit, hn, he]
  simp only [← hs₀, ← hl] at hok ⊢
  split_ifs at hok with hr
  · refine .inl ⟨hr, ((generateNextEvents_cases hok).resolve_left fun ho => ?_).2⟩
    rw [hn, he] at ho
    exact absurd hd (not_le.2 ho.1)
  · split at hok
    · cases hok
    rename_i s₁ hg
    cases hok
    refine .inr ⟨by simpa using hr, s₁, ?_, rfl⟩
    rcases hd.lt_or_eq with hlt | heq
    · rw [generateUpToHorizon_eq (by rwa [hn, he]) (by rw [hs₀]; rfl) s₀.nextLimit_le] at hg
      exact .inl ⟨hlt, hg⟩
    · rw [generateUpToHorizon, if_pos (by simp [hn, he, heq])] at hg
      cases hg
      exact .inr ⟨heq, rfl⟩

/-- The first generation in standard mode, and the one at a `WorkloadGenerate` event, are followed
by the scheduling of the next. -/
theorem regular_scheduleGeneration (hfit : s.AllFit) (hm : s.ws.realTimeMode = false)
    (hd : dueTimes s.state = []) (hc : s.ws.covered ≤ s.ws.endTime)
    (hh : s.ws.generatedHorizon = s.ws.covered) :
    (scheduleGeneration s.ws.covered s).Regular := by
  unfold scheduleGeneration
  split_ifs with hlt
  · refine ⟨hfit, hc, fun _ => hh, fun _ => .inl ⟨?_, hlt⟩, fun h => ?_⟩
    · show dueTimes (scheduleOutside s.state s.ws.covered .workloadGenerate) = _
      rw [dueTimes, pending_scheduleOutside, generationTimes_cons_self]
      exact congrArg _ hd
    · cases hm.symm.trans h
  · exact ⟨hfit, hc, fun _ => hh, fun _ => .inr ⟨hd, .inl (le_antisymm hc (not_lt.1 hlt))⟩,
      fun h => absurd (hm.symm.trans h) Bool.false_ne_true⟩

theorem regular_generate (hfit : s.AllFit) (hm : s.ws.realTimeMode = true)
    (hd : dueTimes s.state = []) (hok : generate fe false fuel s.nextLimit s = .ok s') :
    s'.Regular := by
  obtain ⟨hc, hf', hco, -⟩ := generate_spec hfit hok
  have hm' : s'.ws.realTimeMode = true := hc.realTimeMode.trans hm
  refine ⟨hf', ?_, fun h => ?_, fun h => ?_, fun _ => hc.due.trans hd⟩
  · rw [hco, hc.endTime]
    exact s.nextLimit_le
  · cases hm'.symm.trans h
  · cases hm'.symm.trans h

theorem regular_handleWorkloadGenerate (hfit : s.AllFit) (hm : s.ws.realTimeMode = false)
    (hd : dueTimes s.state = []) (hn : s.state.now = s.ws.covered)
    (hlt : s.ws.covered < s.ws.endTime) (hh : s.ws.generatedHorizon = s.ws.covered)
    (hok : handleWorkloadGenerate fe fuel s = .ok s') : s'.Regular := by
  rcases handleWorkloadGenerate_cases (hn ▸ hlt) hok with ⟨hs, rfl⟩ | ⟨-, s₁, hg, rfl⟩
  · exact ⟨hfit, hlt.le, fun _ => hh, fun _ => .inr ⟨hd, .inr hs⟩, fun h => nomatch hm.symm.trans h⟩
  · obtain ⟨hc, hf₁, hco, -⟩ := generate_spec hfit hg
    have hgt : s.nextLimit > s₁.ws.generatedHorizon := by
      rw [hc.generatedHorizon, hh, ← hn]
      exact lt_capTime (hn ▸ hlt)
    have hle : s₁.ws.covered ≤ s₁.ws.endTime := by
      rw [hco, hc.endTime]
      exact s.nextLimit_le
    rw [if_pos hgt, ← hco]
    exact regular_scheduleGeneration (s := s₁.setHorizon s₁.ws.covered) hf₁
      (hc.realTimeMode.trans hm) (hc.due.trans hd) hle rfl

theorem regular_start (hd : state.now ≤ endTime) (hdue : dueTimes state = [])
    (hok : start fe fuel rows endTime realTime state = .ok s) : s.Regular := by
  obtain ⟨patterns, drawn, hi, hca⟩ := start_cases hd hok
  obtain ⟨s₀, hs₀⟩ : ∃ s₀, s₀ = Simulation.initial state patterns drawn endTime realTime := ⟨_, rfl⟩
  have hfit : s₀.AllFit := fun key ps hps => by
    rw [hs₀] at hps ⊢
    obtain ⟨_, -, -, hrow⟩ := forall_initPatterns hi key ps hps
    exact hrow.fit
  have hd₀ : dueTimes s₀.state = [] := by rw [hs₀]; exact hdue
  have hm₀ : s₀.ws.realTimeMode = realTime := by rw [hs₀]; rfl
  rw [← hs₀] at hca
  rcases hca with ⟨hr, hg⟩ | ⟨hs, s₁, hg, rfl⟩
  · exact regular_generate hfit (hm₀.trans hr) hd₀ hg
  · obtain ⟨hf₁, hm₁, hd₁, he₁, hc₁⟩ : s₁.AllFit ∧ s₁.ws.realTimeMode = false ∧
        dueTimes s₁.state = [] ∧ s₁.ws.endTime = s₀.ws.endTime ∧
        s₁.ws.covered = s₀.nextLimit := by
      rcases hg with ⟨-, hg⟩ | ⟨heq, rfl⟩
      · obtain ⟨hc, hf₁, hco, -⟩ := generate_spec hfit hg
        exact ⟨hf₁, (hc.realTimeMode.trans hm₀).trans hs, hc.due.trans hd₀, hc.endTime, hco⟩
      · -- the run is over before it begins
        refine ⟨hfit, hm₀.trans hs, hd₀, rfl, ?_⟩
        have hp : state.now + eventGenerationLookaheadWindow > endTime := by
          rw [heq]
          exact lt_add_of_pos_right _ (by decide)
        rw [hs₀]
        exact heq.trans (if_pos hp).symm
    have hle : s₁.ws.covered ≤ s₁.ws.endTime := by
      rw [hc₁, he₁]
      exact s₀.nextLimit_le
    rw [← hc₁]
    exact regular_scheduleGeneration (s := s₁.setHorizon s₁.ws.covered) hf₁ hm₁ hd₁ hle rfl

theorem Simulation.Regular.revises (hs : s.Regular) (h : Revises s key s') : s'.Regular := by
  obtain ⟨ps, _, _, _, rfl, hr⟩ := h
  exact ⟨forall_get_set (P := fun _ (ps : PatternState) => ps.Fit s.ws.endTime) hs.fit
    hr.fit, hs.covered_le, hs.horizon, hs.due, hs.noDue⟩

/-- A `WorkloadGenerate` event is taken at the horizon of the last generation, in standard mode. -/
structure TakesDue (s : Simulation) (state : State) (t : Time) : Prop where
  mode : s.ws.realTimeMode = false
  time : t = s.ws.covered
  lt : s.ws.covered < s.ws.endTime
  now : state.now = t
  backdated : state.backdated = s.state.backdated
  due : dueTimes state = []

theorem Simulation.Regular.takesDue (hs : s.Regular) (hr : Reachable env s.state) {t : Time}
    (h : stepEvent env s.state = some state)
    (hk : nextEvent s.state = some (t, .workloadGenerate)) : TakesDue s state t := by
  rcases takes_stepEvent hr h with ⟨hn, -⟩ | ⟨_, k, hne, ht⟩
  · rw [hk] at hn
    cases hn
  rw [hk] at hne
  cases hne
  obtain ⟨newer, older, hd, hd'⟩ := ht.generate_due
  have hm : s.ws.realTimeMode = false := by
    by_contra hreal
    rw [hs.noDue (by simpa using hreal)] at hd
    simp at hd
  rcases hs.due hm with ⟨ho, hlt⟩ | ⟨hnil, -⟩
  · rw [ho] at hd
    obtain ⟨rfl, rfl, rfl⟩ : newer = [] ∧ older = [] ∧ s.ws.covered = t := by
      cases newer <;> simp_all
    exact ⟨hm, rfl, hlt, ht.now_eq, ht.backdated_eq, hd'⟩
  · rw [hnil] at hd
    simp at hd

theorem Simulation.Regular.step {a : Action} (hr : Reachable env s.state) (hs : s.Regular)
    (h : Step fe env s a s') : s'.Regular := by
  cases h with
  | @event state h hk =>
    have hd : dueTimes state = dueTimes s.state := by
      rcases takes_stepEvent hr h with ⟨-, -, -, hp⟩ | ⟨t, k, hn, ht⟩
      · exact congrArg generationTimes hp
      · exact ht.dueTimes_eq fun hki => hk t (hki ▸ hn)
    exact ⟨hs.fit, hs.covered_le, hs.horizon, hd ▸ hs.due, hd ▸ hs.noDue⟩
  | @generate _ state _ _ h hk hg =>
    have ht := hs.takesDue hr h hk
    exact regular_handleWorkloadGenerate (s := { s with state := state }) hs.fit ht.mode
      ht.due (ht.now.trans ht.time) ht.lt (hs.horizon ht.mode) hg
  | tick _ hre _ hg =>
    rcases generateNextEvents_cases hg with ⟨-, rfl⟩ | ⟨-, hgen⟩
    · exact hs
    · exact regular_generate hs.fit hre (hs.noDue hre) hgen
  | updateRate _ _ h => exact hs.revises (updateRate_spec hs.fit h)
  | updatePattern _ _ h => exact hs.revises (updatePattern_spec hs.fit h)
  | stop =>
    refine ⟨hs.fit, hs.covered_le, hs.horizon, fun hm => ?_, hs.noDue⟩
    exact (hs.due hm).imp_right fun hnil => ⟨hnil.1, .inr rfl⟩
  | outside h =>
    have hd := dueTimes_eq_of_feedOf (h.course hr).2.2.1
    exact ⟨hs.fit, hs.covered_le, hs.horizon, hd ▸ hs.due, hd ▸ hs.noDue⟩

theorem Prepared.dueTimes (h : Prepared env state) : dueTimes state = [] := by
  induction h with
  | init h =>
    obtain ⟨_, m, -, rfl⟩ := h.placed
    rfl
  | outside hs h ih => rw [dueTimes_eq_of_feedOf (h.course hs.reachable).2.2.1, ih]

/-- Every state that a run reaches is regular. -/
theorem RunBy.regular {ok : Simulation → Action → Prop} (h : RunBy fe env ok s) : s.Regular := by
  induction h with
  | start hp _ _ _ hd h => exact regular_start hd hp.dueTimes h
  | step hs _ h ih => exact ih.step hs.reachable h

end SimCore.Workload
