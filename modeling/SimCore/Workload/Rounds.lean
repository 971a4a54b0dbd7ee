import SimCore.Workload.Invariant

/-!
# Rounds of generation

In one round the generator visits every pattern, in some order. What a visit does to a pattern
depends on the pattern and on what has been drawn before. If at most one pattern draws, the outcome
of a round does not depend on the order of the visits.

## Main definitions

* `Lane`: a pattern, with what has been drawn and what it has scheduled
* `Visit`: the generation for one pattern, without the rest of the run
* `Round`: what a round does if only one pattern draws
* `Rounds`: the rounds of a run in standard mode

## Main results

* `Visit.unique`, `Round.unique`, `Rounds.unique`: each is determined by what it starts from
* `generate_round`: a generation is a round
-/

namespace SimCore.Workload

open Config Simd Protocol List

variable {fe : Feed} {env : Env} {standard halted : Bool} {key drawer : String}
  {endTime limit : Time} {fuel : Nat} {b b' : Batch} {s s' : Simulation} {ps : PatternState}

/-! ### Lanes -/

/-- A pattern, with what has been drawn and what it has scheduled, the latest first. -/
structure Lane where
  ps : PatternState
  drawn : History
  log : List (Time × ArrivalData)

def Batch.lane (key : String) (b : Batch) : Lane :=
  ⟨b.ps, b.drawn, keyLog key b.log⟩

/-- A lane schedules an arrival and goes on to the next. -/
def Lane.Turn (fe : Feed) (key : String) (endTime limit : Time) (l l' : Lane) : Prop :=
  ∃ next ps drawn, l.ps.more endTime limit = true ∧
    advanceToNextArrival fe endTime l.ps l.ps.nextEventTime l.drawn = .ok ((next, ps), drawn) ∧
    l' = ⟨{ ps with lastEventTime := l.ps.nextEventTime, nextEventTime := next }, drawn,
      (l.ps.nextEventTime, workloadArrivalEventData key l.ps) :: l.log⟩

/-- The lane from which the generation for its pattern starts. -/
def Lane.cover (fe : Feed) (endTime limit : Time) (l : Lane) : Lane :=
  let (ps, drawn) := l.ps.cover fe endTime limit l.drawn
  ⟨ps, drawn, l.log⟩

/-- An update is no longer new to a lane. -/
def Lane.settle (l : Lane) : Lane :=
  { l with ps := { l.ps with revised := none } }

/-- The generation for one pattern. -/
def Visit (fe : Feed) (key : String) (endTime limit : Time) (l l' : Lane) : Prop :=
  ∃ l₁, Relation.ReflTransGen (Lane.Turn fe key endTime limit) (l.cover fe endTime limit) l₁ ∧
    l₁.ps.more endTime limit = false ∧ l' = l₁.settle

theorem turn_rightUnique : Relator.RightUnique (Lane.Turn fe key endTime limit) := by
  rintro l _ _ ⟨_, _, _, -, ha, rfl⟩ ⟨_, _, _, -, ha', rfl⟩
  rw [ha] at ha'
  cases ha'
  rfl

variable {l l' : Lane}

theorem eq_of_not_more (hm : l.ps.more endTime limit = false)
    (h : Relation.ReflTransGen (Lane.Turn fe key endTime limit) l l') : l' = l := by
  rcases Relation.ReflTransGen.cases_head h with heq | ⟨_, ⟨_, _, _, hmo, -⟩, -⟩
  · exact heq.symm
  · cases hm.symm.trans hmo

/-- A visit is determined by the lane. -/
theorem Visit.unique {l₁ l₂ : Lane} (h₁ : Visit fe key endTime limit l l₁)
    (h₂ : Visit fe key endTime limit l l₂) : l₁ = l₂ := by
  obtain ⟨_, hr₁, hm₁, rfl⟩ := h₁
  obtain ⟨_, hr₂, hm₂, rfl⟩ := h₂
  rcases Relation.ReflTransGen.total_of_right_unique turn_rightUnique hr₁ hr₂ with h | h
  · rw [eq_of_not_more hm₁ h]
  · rw [eq_of_not_more hm₂ h]

theorem Emits.turn (he : Emits fe standard key endTime limit b b') :
    (b.lane key).Turn fe key endTime limit (b'.lane key) := by
  obtain ⟨next, ps, drawn, hm, -, ha, rfl⟩ := he
  refine ⟨next, ps, drawn, hm, ha, ?_⟩
  show Batch.lane key ((b.schedule key).move next ps drawn) = _
  rw [Batch.lane, Lane.mk.injEq]
  exact ⟨rfl, rfl, keyLog_schedule_self key b⟩

theorem Generated.turns (hg : Generated fe standard key endTime limit b halted b')
    (hn : b'.state.eng.guardErr = none) :
    Relation.ReflTransGen (Lane.Turn fe key endTime limit) (b.lane key) (b'.lane key) ∧
      (b'.lane key).ps.more endTime limit = false := by
  obtain ⟨_, ht, hl⟩ := hg.induction
    (P := fun b' => Relation.ReflTransGen (Lane.Turn fe key endTime limit) (b.lane key)
      (b'.lane key)) .refl fun b₁ b₂ hb he => hb.tail he.turn
  rcases hl with ⟨-, rfl, hm⟩ | ⟨-, -, -, hgu⟩
  · exact ⟨ht, hm⟩
  · exact absurd hn hgu

/-! ### Visits -/

/-- The lane of a pattern of a run. -/
def Simulation.lane (s : Simulation) (key : String) (ps : PatternState) : Lane :=
  ⟨ps, s.ws.drawn, keyLog key s.ws.log⟩

theorem lane_batch (s : Simulation) (key : String) (ps : PatternState) (limit : Time) :
    (s.batch fe limit ps).lane key = (s.lane key ps).cover fe s.ws.endTime limit :=
  rfl

/-- The generation for a pattern, if no guardrail error ends it, is a visit. -/
theorem generatePattern_visit (hf : s.AllFit) (hps : s.ws.patterns.get key = some ps)
    (hok : generatePattern fe standard fuel limit key s = .ok (halted, s'))
    (hn : s'.state.eng.guardErr = none) :
    ∃ l, Visit fe key s.ws.endTime limit (s.lane key ps) l ∧
      s'.ws.patterns.get key = some l.ps ∧ s'.ws.drawn = l.drawn ∧
      keyLog key s'.ws.log = l.log ∧
      ∀ key', key' ≠ key → s'.ws.patterns.get key' = s.ws.patterns.get key' ∧
        keyLog key' s'.ws.log = keyLog key' s.ws.log := by
  rcases generatePattern_cases hok with ⟨-, rfl, hi⟩ | ⟨ps', b, hps', hg, rfl⟩
  · exact absurd (hi ps hps) (by simp [(hf key ps hps).active])
  · obtain rfl : ps' = ps := Option.some.inj (hps'.symm.trans hps)
    obtain ⟨ht, hm⟩ := hg.turns hn
    rw [lane_batch] at ht
    refine ⟨(b.lane key).settle, ⟨b.lane key, ht, hm, rfl⟩, KeyMap.get_set_self .., rfl, rfl,
      fun key' hne => ⟨KeyMap.get_set_of_ne hne, ?_⟩⟩
    exact (hg.keyLog_of_ne hne).trans (congrArg (keyLog key') (log_batch s ps'))

/-- The pattern does not draw. -/
def PatternState.still (ps : PatternState) : Prop :=
  ps.pattern.arrival.type = "constant"

theorem PatternState.still.not_uniform (h : ps.still) : ps.uniform = false := by
  rw [PatternState.uniform, h]
  decide

theorem Lane.cover_of_still (h : l.ps.still) : l.cover fe endTime limit = l := by
  rw [Lane.cover, PatternState.cover, h.not_uniform]
  rfl

/-- The turns of a pattern that does not draw do not depend on what has been drawn. -/
theorem turns_of_still (hs : l.ps.still) (drawn : History)
    (h : Relation.ReflTransGen (Lane.Turn fe key endTime limit) l l') :
    l'.ps.still ∧ l'.drawn = l.drawn ∧
      Relation.ReflTransGen (Lane.Turn fe key endTime limit) { l with drawn := drawn }
        { l' with drawn := drawn } := by
  induction h with
  | refl => exact ⟨hs, rfl, .refl⟩
  | @tail _ _ _ htu ih =>
    obtain ⟨hs₁, hd, ht⟩ := ih
    obtain ⟨_, _, _, hm, ha, rfl⟩ := htu
    rw [advanceToNextArrival, hs₁.not_uniform] at ha
    simp only [Bool.not_false, if_true, calculateNextArrivalTime_constant hs₁] at ha
    cases ha
    refine ⟨hs₁, hd, ht.tail ⟨_, _, _, hm, ?_, rfl⟩⟩
    rw [advanceToNextArrival, hs₁.not_uniform]
    simp only [Bool.not_false, if_true, calculateNextArrivalTime_constant hs₁]

/-- A visit of a pattern that does not draw does not depend on what has been drawn. -/
theorem Visit.of_still (hs : l.ps.still) (h : Visit fe key endTime limit l l')
    (drawn : History) : l'.drawn = l.drawn ∧
      Visit fe key endTime limit { l with drawn := drawn } { l' with drawn := drawn } := by
  obtain ⟨l₁, ht, hm, rfl⟩ := h
  rw [Lane.cover_of_still hs] at ht
  obtain ⟨-, hd, ht'⟩ := turns_of_still hs drawn ht
  refine ⟨hd, { l₁ with drawn := drawn }, ?_, hm, rfl⟩
  rw [Lane.cover_of_still (l := { l with drawn := drawn }) hs]
  exact ht'

/-! ### Rounds -/

/-- The patterns of a run, what has been drawn, and what each pattern has scheduled. -/
@[ext] structure Snapshot where
  get : String → Option PatternState
  drawn : History
  logs : String → List (Time × ArrivalData)

def Simulation.snapshot (s : Simulation) : Snapshot :=
  ⟨s.ws.patterns.get, s.ws.drawn, fun key => keyLog key s.ws.log⟩

/-- A round in which only the pattern `drawer` draws: all patterns are visited, each as if it were
the first. -/
structure Round (fe : Feed) (drawer : String) (endTime limit : Time) (c c' : Snapshot) : Prop where
  visited : ∀ key ps, c.get key = some ps → ∃ l,
    Visit fe key endTime limit ⟨ps, c.drawn, c.logs key⟩ l ∧ c'.get key = some l.ps ∧
      c'.logs key = l.log ∧ (key = drawer → c'.drawn = l.drawn)
  absent : ∀ key, c.get key = none → c'.get key = none ∧ c'.logs key = c.logs key
  undrawn : c.get drawer = none → c'.drawn = c.drawn

/-- A round is determined by the snapshot before it. -/
theorem Round.unique {c c₁ c₂ : Snapshot} (h₁ : Round fe drawer endTime limit c c₁)
    (h₂ : Round fe drawer endTime limit c c₂) : c₁ = c₂ := by
  have hk : ∀ key, c₁.get key = c₂.get key ∧ c₁.logs key = c₂.logs key ∧
      (key = drawer → c₁.drawn = c₂.drawn) := by
    intro key
    cases hps : c.get key with
    | none =>
      obtain ⟨hg₁, hl₁⟩ := h₁.absent key hps
      obtain ⟨hg₂, hl₂⟩ := h₂.absent key hps
      refine ⟨hg₁.trans hg₂.symm, hl₁.trans hl₂.symm, ?_⟩
      rintro rfl
      exact (h₁.undrawn hps).trans (h₂.undrawn hps).symm
    | some ps =>
      obtain ⟨_, hv₁, hg₁, hl₁, hd₁⟩ := h₁.visited key ps hps
      obtain ⟨_, hv₂, hg₂, hl₂, hd₂⟩ := h₂.visited key ps hps
      obtain rfl := hv₁.unique hv₂
      exact ⟨hg₁.trans hg₂.symm, hl₁.trans hl₂.symm, fun heq => (hd₁ heq).trans (hd₂ heq).symm⟩
  ext1
  · funext key
    exact (hk key).1
  · exact (hk drawer).2.2 rfl
  · funext key
    exact (hk key).2.1

/-- What the visits so far have done, with the patterns `rest` still to come. -/
structure Midway (fe : Feed) (drawer : String) (limit : Time) (s : Simulation)
    (rest : List String) (s₁ : Simulation) : Prop where
  nodup : rest.Nodup
  visited : ∀ key ps, s.ws.patterns.get key = some ps → key ∉ rest → ∃ l,
    Visit fe key s.ws.endTime limit (s.lane key ps) l ∧ s₁.ws.patterns.get key = some l.ps ∧
      keyLog key s₁.ws.log = l.log ∧ (key = drawer → s₁.ws.drawn = l.drawn)
  waiting : ∀ key, key ∈ rest ∨ s.ws.patterns.get key = none →
    s₁.ws.patterns.get key = s.ws.patterns.get key ∧ keyLog key s₁.ws.log = keyLog key s.ws.log
  undrawn : drawer ∈ rest ∨ s.ws.patterns.get drawer = none → s₁.ws.drawn = s.ws.drawn

/-- Only the pattern `drawer` draws. -/
def Simulation.OnlyDraws (s : Simulation) (drawer : String) : Prop :=
  ∀ key ps, s.ws.patterns.get key = some ps → key ≠ drawer → ps.still

theorem Midway.visit {rest : List String} {s₁ s₂ : Simulation} (hst : s.OnlyDraws drawer)
    (hp : Midway fe drawer limit s (key :: rest) s₁) (he : s₁.ws.endTime = s.ws.endTime)
    (hf : s₁.AllFit) (hok : generatePattern fe standard fuel limit key s₁ = .ok (halted, s₂))
    (hn : s₂.state.eng.guardErr = none) : Midway fe drawer limit s rest s₂ := by
  have hno : key ∉ rest := (nodup_cons.1 hp.nodup).1
  cases hps : s.ws.patterns.get key with
  | none =>
    -- the key of no pattern
    have hg : s₁.ws.patterns.get key = none := (hp.waiting key (.inr hps)).1.trans hps
    have hs : s₂ = s₁ := by
      rw [generatePattern, hg] at hok
      cases hok
      rfl
    subst hs
    refine ⟨(nodup_cons.1 hp.nodup).2, fun key' ps' hps' hr => ?_, fun key' hk' => ?_,
      fun hd => hp.undrawn (hd.imp_left (mem_cons_of_mem _))⟩
    · refine hp.visited key' ps' hps' fun hm => ?_
      rcases mem_cons.1 hm with rfl | hm
      · cases hps.symm.trans hps'
      · exact hr hm
    · exact hp.waiting key' (hk'.imp_left (mem_cons_of_mem _))
  | some ps =>
    obtain ⟨hg, hlog⟩ := hp.waiting key (.inl mem_cons_self)
    obtain ⟨l, hv, hg₂, hd₂, hl₂, ho⟩ :=
      generatePattern_visit hf (hg.trans hps) hok hn
    rw [he] at hv
    have hl : s₁.lane key ps = { s.lane key ps with drawn := s₁.ws.drawn } := by
      rw [Simulation.lane, hlog]
      rfl
    -- the visit as it would have been at the beginning of the round
    obtain ⟨l', hv', hps', hl', hd', hs⟩ : ∃ l',
        Visit fe key s.ws.endTime limit (s.lane key ps) l' ∧ l'.ps = l.ps ∧ l'.log = l.log ∧
          (key = drawer → l'.drawn = l.drawn) ∧ (key ≠ drawer → l.drawn = s₁.ws.drawn) := by
      by_cases hk : key = drawer
      · have hdr : s₁.ws.drawn = s.ws.drawn := hp.undrawn (.inl (hk ▸ mem_cons_self))
        rw [hl, hdr] at hv
        exact ⟨l, hv, rfl, rfl, fun _ => rfl, fun hne => absurd hk hne⟩
      · rw [hl] at hv
        obtain ⟨hdr, hv'⟩ := hv.of_still (hst key ps hps hk) s.ws.drawn
        exact ⟨_, hv', rfl, rfl, fun heq => absurd heq hk, fun _ => hdr⟩
    refine ⟨(nodup_cons.1 hp.nodup).2, fun key' ps' hps₁ hr => ?_, fun key' hk' => ?_, fun hd => ?_⟩
    · by_cases hk : key' = key
      · subst hk
        obtain rfl : ps = ps' := Option.some.inj (hps.symm.trans hps₁)
        exact ⟨l', hv', hg₂.trans (by rw [hps']), hl₂.trans hl'.symm,
          fun heq => hd₂.trans (hd' heq).symm⟩
      · obtain ⟨l₁, hv₁, hg₁, hl₁, hd₁⟩ := hp.visited key' ps' hps₁ (by simp [hk, hr])
        refine ⟨l₁, hv₁, (ho key' hk).1.trans hg₁, (ho key' hk).2.trans hl₁, fun heq => ?_⟩
        rw [hd₂, hs fun h => hk (heq.trans h.symm)]
        exact hd₁ heq
    · have hk : key' ≠ key := by
        rintro rfl
        exact hk'.elim hno fun hn => by simp [hps] at hn
      obtain ⟨hg', hl'⟩ := hp.waiting key' (hk'.imp_left (mem_cons_of_mem _))
      exact ⟨(ho key' hk).1.trans hg', (ho key' hk).2.trans hl'⟩
    · have hk : key ≠ drawer := by
        rintro rfl
        exact hd.elim hno fun hn => by simp [hps] at hn
      rw [hd₂, hs hk]
      exact hp.undrawn (hd.imp_left (mem_cons_of_mem _))

/-- A generation in which only one pattern draws, if no guardrail error ends it, is a round. -/
theorem generate_round (hfit : s.AllFit) (hs : s.OnlyDraws drawer)
    (hok : generate fe standard fuel limit s = .ok s') (hno : s'.state.eng.guardErr = none) :
    Round fe drawer s.ws.endTime limit s.snapshot s'.snapshot := by
  unfold generate at hok
  split at hok
  · cases hok
  rename_i s₁ he
  cases hok
  have hf : Midway fe drawer limit s (fe.order s.ws.ranges s.ws.patterns.keys) s := by
    have hpe := fe.order_perm s.ws.ranges s.ws.patterns.keys
    refine ⟨hpe.nodup_iff.2 s.ws.patterns.nodup, fun key ps hps hn => ?_,
      fun _ _ => ⟨rfl, rfl⟩, fun _ => rfl⟩
    exact absurd (hpe.mem_iff.2 (KeyMap.mem_keys_of_get hps)) hn
  have hv : s₁.AllFit ∧ SameCourse s s₁ ∧
      (s₁.state.eng.guardErr = none → Midway fe drawer limit s [] s₁) := by
    refine generateEach_induction (P := fun rest s₁ => s₁.AllFit ∧ SameCourse s s₁ ∧
      (s₁.state.eng.guardErr = none → Midway fe drawer limit s rest s₁)) ?_ ?_
      ⟨hfit, .refl s, fun _ => hf⟩ he
    · rintro key _ s₂ _ _ ⟨hf₂, hc, hm⟩ hp
      obtain ⟨hc', hf₃, hg, -⟩ := generatePattern_spec hf₂ hp
      exact ⟨hf₃, hc.trans hc', fun hn₃ =>
        (hm (hg hn₃).1).visit hs hc.endTime hf₂ hp hn₃⟩
    · rintro _ _ hg ⟨hf₂, hc, -⟩
      exact ⟨hf₂, hc, fun hn₂ => absurd hn₂ hg⟩
  have hm := hv.2.2 hno
  refine ⟨fun key ps hps => hm.visited key ps hps not_mem_nil, fun key hps => ?_,
    fun hps => hm.undrawn (.inr hps)⟩
  obtain ⟨hget, hl⟩ := hm.waiting key (.inr hps)
  exact ⟨hget.trans hps, hl⟩

/-! ### The rounds of a run -/

/-- The horizon after a number of rounds. -/
def horizonAt (startTime endTime : Time) : Nat → Time
  | 0 => startTime
  | n + 1 => capTime endTime (horizonAt startTime endTime n + eventGenerationLookaheadWindow)

/-- The snapshots after the rounds of a run in standard mode. -/
inductive Rounds (fe : Feed) (drawer : String) (rows : List WorkloadPattern)
    (startTime endTime : Time) : Nat → Snapshot → Prop
  | init {patterns : KeyMap String PatternState} {drawn : History}
      (h : initPatterns fe startTime endTime false rows .empty [] = .ok (patterns, drawn)) :
      Rounds fe drawer rows startTime endTime 0 ⟨patterns.get, drawn, fun _ => []⟩
  | round {n : Nat} {c c' : Snapshot} (hc : Rounds fe drawer rows startTime endTime n c)
      (hlt : horizonAt startTime endTime n < endTime)
      (h : Round fe drawer endTime (horizonAt startTime endTime (n + 1)) c c') :
      Rounds fe drawer rows startTime endTime (n + 1) c'

section Rounds

variable {rows : List WorkloadPattern} {startTime : Time} {m n : Nat} {c c' : Snapshot}

/-- The snapshot after a number of rounds is determined. -/
theorem Rounds.unique (h : Rounds fe drawer rows startTime endTime n c)
    (h' : Rounds fe drawer rows startTime endTime n c') : c = c' := by
  induction h generalizing c' with
  | init hi =>
    cases h' with
    | init hi' =>
      rw [hi] at hi'
      cases hi'
      rfl
  | round _ _ hr ih =>
    cases h' with
    | round hc' _ hr' =>
      obtain rfl := ih hc'
      exact hr.unique hr'

theorem horizonAt_le (hd : startTime ≤ endTime) (n : Nat) :
    horizonAt startTime endTime n ≤ endTime := by
  cases n with
  | zero => exact hd
  | succ => exact capTime_le ..

/-- Before the last round the horizon is before the end of the run. -/
theorem Rounds.lt (h : Rounds fe drawer rows startTime endTime n c) (hm : m < n) :
    horizonAt startTime endTime m < endTime := by
  induction h with
  | init => exact absurd hm (Nat.not_lt_zero m)
  | @round _ _ _ _ hlt _ ih =>
    rcases Nat.lt_succ_iff_lt_or_eq.1 hm with hm | rfl
    · exact ih hm
    · exact hlt

/-- A run reaches its end after a determined number of rounds. -/
theorem Rounds.count_unique (h : Rounds fe drawer rows startTime endTime m c)
    (h' : Rounds fe drawer rows startTime endTime n c')
    (hm : horizonAt startTime endTime m = endTime) (hn : horizonAt startTime endTime n = endTime) :
    m = n := by
  rcases Nat.lt_trichotomy m n with hlt | heq | hlt
  · exact absurd hm (h'.lt hlt).ne
  · exact heq
  · exact absurd hn (h.lt hlt).ne

end Rounds

/-- The patterns of a run in standard mode that is not updated have gone through rounds. -/
structure Simulation.InRounds (fe : Feed) (env : Env) (drawer : String) (s : Simulation) :
    Prop where
  start_le : s.ws.startTime ≤ s.ws.endTime
  onlyDraws : s.OnlyDraws drawer
  rounds : ∃ n, Rounds fe drawer env.scenario.normalizedWorkload s.ws.startTime s.ws.endTime n
    s.snapshot ∧ s.ws.covered = horizonAt s.ws.startTime s.ws.endTime n

/-- Only the row with the given key may draw. -/
def OnlyRowDraws (sc : Scenario) (drawer : String) : Prop :=
  ∀ row ∈ sc.normalizedWorkload, patternKey row.source row.target ≠ drawer →
    row.arrival.type = "constant"

theorem kept_inRounds (hdr : OnlyRowDraws env.scenario drawer) :
    Kept fe env Untouched fun s => s.state.eng.guardErr = none → s.ws.realTimeMode = false →
      s.InRounds fe env drawer where
  initial {state patterns drawn endTime realTime} hp hd hin _ hmode := by
    obtain rfl : realTime = false := hmode
    refine ⟨hd, fun key ps hps hk => ?_, 0, .init hin, rfl⟩
    obtain ⟨row, hrow, rfl, hi⟩ := forall_initPatterns hin key ps hps
    rw [PatternState.still, hi.pattern]
    exact hdr row hrow hk
  generate {s s' fuel} hfit hnot hn hs hok hnone hmode := by
    obtain ⟨hc, _, hco, hdo⟩ := generate_spec hfit hok
    have hm₀ : s.ws.realTimeMode = false := hc.realTimeMode.symm.trans hmode
    obtain ⟨hle, hdr, n, hr, hh⟩ := hs (hdo hnone).1 hm₀
    have hro := generate_round hfit hdr hok hnone
    have hl : s.nextLimit = horizonAt s.ws.startTime s.ws.endTime (n + 1) := by
      rw [Simulation.nextLimit, hn hm₀, hh, horizonAt]
    have hlt : horizonAt s.ws.startTime s.ws.endTime n < s.ws.endTime := by
      refine lt_of_le_of_ne (horizonAt_le hle n) fun heq => hnot (.inr ⟨hm₀, ?_⟩)
      exact hh.trans heq
    rw [hl] at hro
    refine ⟨?_, fun key ps' hps' hk => ?_, n + 1, ?_, ?_⟩
    · rw [hc.startTime, hc.endTime]
      exact hle
    · have hm : key ∈ s.ws.patterns.keys := hc.keys ▸ KeyMap.mem_keys_of_get hps'
      obtain ⟨ps, hps⟩ := Option.isSome_iff_exists.1 ((s.ws.patterns.mem_keys key).1 hm)
      have hpa : ps'.pattern = ps.pattern :=
        congrArg Prod.fst (generate_label hfit hok key ps ps' hps hps')
      rw [PatternState.still, hpa]
      exact hdr key ps hps hk
    · rw [hc.startTime, hc.endTime]
      exact hr.round hlt hro
    · rw [hco, hc.startTime, hc.endTime, hl]
  horizon {s} t t' hs hnone hmode := by
    have hws : (scheduleGeneration t (s.setHorizon t')).ws = (s.setHorizon t').ws :=
      ws_scheduleGeneration
    rw [hws] at hmode
    have hr := hs (guardErr_scheduleGeneration (s := s.setHorizon t') hnone) hmode
    obtain ⟨hle, hdr, hr⟩ := hr
    constructor
    · rw [hws]
      exact hle
    · unfold Simulation.OnlyDraws
      rw [hws]
      exact hdr
    · unfold Simulation.snapshot
      rw [hws]
      exact hr
  quiet hq hs hnone hmode := by
    obtain ⟨hle, hdr, hr⟩ := hs (hq.guardErr hnone) hmode
    exact ⟨hle, hdr, hr⟩
  update hok hk _ _ _ := nomatch hok.symm.trans hk
  stop hs hnone hmode := by
    obtain ⟨hle, hdr, hr⟩ := hs hnone hmode
    exact ⟨hle, hdr, hr⟩

end SimCore.Workload
