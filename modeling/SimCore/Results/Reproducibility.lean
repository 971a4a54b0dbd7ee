import SimCore.Workload.Rounds

/-!
# Reproducible arrivals

All patterns draw from one random source, and the order in which a generation visits them is that of
an iteration over a map. If two patterns draw, each gets other numbers in another order. If two
patterns have an arrival at the same time, the order of these arrivals in the event queue is that of
the visits.

## Main definitions

* `Feed.Agree`: two generators draw from the same source
* `Apart`: arrivals at the same time belong to one pattern

## Main results

* `arrivals_reproducible`: if at most one pattern draws, the scheduled arrivals do not depend on the
  order of the visits
* `arrivals_depend_on_order`: two rows with Poisson arrivals
-/

namespace SimCore.Workload

open Config Simd Protocol List

variable {fe fe' : Feed} {env env' : Env} {standard halted : Bool} {key drawer : String}
  {startTime endTime limit : Time} {fuel : Nat} {b b' : Batch} {s s' : Simulation}
  {ps : PatternState}

/-! ### Generators with the same source -/

/-- Two generators draw from the same source; the order of their visits may differ. -/
structure Feed.Agree (fe fe' : Feed) : Prop where
  source : fe'.source = fe.source
  sqrt : fe'.sqrt = fe.sqrt

namespace Feed.Agree

variable (ha : fe.Agree fe')

include ha

theorem sampleBinomial_eq : sampleBinomial fe' = sampleBinomial fe := by
  funext n p h
  rw [sampleBinomial, ha.source, ha.sqrt, sampleBinomial]

theorem sampleChunk_eq : sampleChunk fe' = sampleChunk fe := by
  funext endTime chunkEnd ps h
  simp [sampleChunk, chunkArrivals, sampleGlobalUniformChunkCount, ha.sampleBinomial_eq, ha.source]

theorem ensureLoop_eq (coverThrough : Time) (n : Nat) :
    ensureLoop fe' endTime coverThrough n = ensureLoop fe endTime coverThrough n := by
  induction n with
  | zero => rfl
  | succ n ih =>
    funext ps h
    rw [ensureLoop, ensureLoop]
    simp only [ha.sampleChunk_eq, ih]

theorem ensureUniformHorizon_eq : ensureUniformHorizon fe' = ensureUniformHorizon fe := by
  funext endTime ps coverThrough h
  simp only [ensureUniformHorizon, ha.ensureLoop_eq]

theorem advanceToNextArrival_eq : advanceToNextArrival fe' = advanceToNextArrival fe := by
  funext endTime ps scheduledAt h
  simp only [advanceToNextArrival, ha.ensureUniformHorizon_eq, ha.source]

theorem initPatterns_eq (realTime : Bool) (rows : List WorkloadPattern) :
    initPatterns fe' startTime endTime realTime rows =
      initPatterns fe startTime endTime realTime rows := by
  induction rows with
  | nil => rfl
  | cons row rows ih =>
    funext m h
    rw [initPatterns, initPatterns]
    simp only [initPattern, PatternState.begin, ha.ensureUniformHorizon_eq, ha.source, ih]

theorem visit {l l' : Lane} (h : Visit fe' key endTime limit l l') :
    Visit fe key endTime limit l l' := by
  have hc : l.cover fe' endTime limit = l.cover fe endTime limit := by
    simp only [Lane.cover, PatternState.cover, ha.ensureUniformHorizon_eq]
  have ht : Lane.Turn fe' key endTime limit = Lane.Turn fe key endTime limit := by
    funext l l'
    rw [Lane.Turn, ha.advanceToNextArrival_eq, Lane.Turn]
  rw [Visit, hc, ht] at h
  exact h

theorem rounds {rows : List WorkloadPattern} {n : Nat} {c : Snapshot}
    (h : Rounds fe' drawer rows startTime endTime n c) :
    Rounds fe drawer rows startTime endTime n c := by
  induction h with
  | init hi =>
    rw [ha.initPatterns_eq] at hi
    exact .init hi
  | round _ hlt hr ih =>
    refine ih.round hlt ⟨fun key ps hps => ?_, hr.absent, hr.undrawn⟩
    obtain ⟨l, hv, hre⟩ := hr.visited key ps hps
    exact ⟨l, ha.visit hv, hre⟩

end Feed.Agree

/-! ### The scheduled arrivals -/

/-- Every scheduled arrival belongs to a pattern. -/
theorem kept_log : Kept fe env Untouched fun s => ∀ e ∈ s.ws.log, ∃ key v,
    e.2.spec = some (key, v) where
  initial _ _ _ e he := by cases he
  generate {s s' fuel} hf _ _ hs hok := by
    obtain ⟨s₁, hs₁, -, rfl⟩ := generate_induction
      (P := fun s => ∀ e ∈ s.ws.log, ∃ key v, e.2.spec = some (key, v)) hf hs
      (fun {key halted s₁ s₂} _ _ hs₁ hok => by
        rcases generatePattern_cases hok with ⟨-, rfl, -⟩ | ⟨ps, b, -, hg, rfl⟩
        · exact hs₁
        have hsc : ∀ b₁ : Batch, (∀ e ∈ b₁.log, ∃ key v, e.2.spec = some (key, v)) →
            ∀ e ∈ (b₁.schedule key).log, ∃ key v, e.2.spec = some (key, v) := by
          intro b₁ hb e he
          rcases mem_cons.1 he with rfl | he
          · exact ⟨key, b₁.ps.revisions.length, rfl⟩
          · exact hb e he
        obtain ⟨b₀, hlog, hl⟩ := hg.induction
          (P := fun b' => ∀ e ∈ b'.log, ∃ key v, e.2.spec = some (key, v))
          (by rw [log_batch]; exact hs₁)
          fun b₁ b₂ hb he => by
            obtain ⟨_, _, _, -, -, -, rfl⟩ := he
            exact hsc b₁ hb
        rcases hl with ⟨-, rfl, -⟩ | ⟨-, rfl, -⟩
        · exact hlog
        · exact hsc b₀ hlog) hok
    exact hs₁
  horizon t t' hs := by
    rw [ws_scheduleGeneration]
    exact hs
  quiet _ hs := hs
  update hok hkey _ _ _ := nomatch hok.symm.trans hkey
  stop hs := hs

/-- Arrivals at the same time belong to one pattern. -/
def Apart (log : List (Time × ArrivalData)) : Prop :=
  ∀ e ∈ log, ∀ e' ∈ log, e.1 = e'.1 → e.2.spec.map Prod.fst = e'.2.spec.map Prod.fst

section Logs

variable {log log' : List (Time × ArrivalData)}

/-- Arrivals are the same, up to order, if those of every pattern are. -/
theorem perm_of_keyLog (hs : ∀ e ∈ log, ∃ key v, e.2.spec = some (key, v))
    (hs' : ∀ e ∈ log', ∃ key v, e.2.spec = some (key, v))
    (h : ∀ key, keyLog key log = keyLog key log') : log.Perm log' := by
  refine perm_iff_count.2 fun e => ?_
  cases hkey : e.2.spec with
  | none =>
    have hn : ∀ {log : List (Time × ArrivalData)},
        (∀ e ∈ log, ∃ key v, e.2.spec = some (key, v)) → e ∉ log := by
      intro log hs hm
      obtain ⟨_, v, hso⟩ := hs e hm
      rw [hkey] at hso
      cases hso
    rw [count_eq_zero_of_not_mem (hn hs), count_eq_zero_of_not_mem (hn hs')]
  | some spec =>
    have hc : ∀ log, count e (keyLog spec.1 log) = count e log := fun log =>
      count_filter (by simp [hkey])
    rw [← hc log, ← hc log', h]

/-- Arrivals at one time are in the same order if they belong to one pattern. -/
theorem filter_time_eq (hp : log.Perm log') (hap : Apart log)
    (hsp : ∀ e ∈ log, ∃ key v, e.2.spec = some (key, v))
    (h : ∀ key, keyLog key log = keyLog key log') (t : Time) :
    log.filter (fun e => e.1 = t) = log'.filter fun e => e.1 = t := by
  by_cases hs : ∃ e ∈ log, e.1 = t
  · obtain ⟨e, he, rfl⟩ := hs
    obtain ⟨key, v, hk⟩ := hsp e he
    -- all of them belong to the pattern of the first
    have ho : ∀ l : List (Time × ArrivalData), l ⊆ log →
        l.filter (fun x => x.1 = e.1) = (keyLog key l).filter fun x => x.1 = e.1 := by
      intro l hl
      rw [keyLog, filter_filter]
      refine filter_congr fun x hx => ?_
      by_cases ht : x.1 = e.1
      · have hsa := hap x (hl hx) e he ht
        rw [hk] at hsa
        simp [ht, hsa]
      · simp [ht]
    rw [ho log (List.Subset.refl _), ho log' hp.symm.subset, h]
  · have hn : ∀ l : List (Time × ArrivalData), l ⊆ log → l.filter (fun x => x.1 = t) = [] := by
      intro l hl
      refine filter_eq_nil_iff.2 fun x hx => ?_
      simp only [decide_eq_true_eq]
      exact fun ht => hs ⟨x, hl hx, ht⟩
    rw [hn log (List.Subset.refl _), hn log' hp.symm.subset]

end Logs

/-- A run in standard mode has generated all its arrivals, without updates and without a guardrail
error. -/
structure Complete (fe : Feed) (env : Env) (s : Simulation) : Prop where
  run : RunBy fe env Untouched s
  standard : s.ws.realTimeMode = false
  noError : s.state.eng.guardErr = none
  horizon : s.ws.generatedHorizon = s.ws.endTime

/-- Two complete runs of one scenario over the same interval, with generators that draw from the
same source. If at most one workload row draws, they schedule the same arrivals. If also no two
patterns have an arrival at the same time, arrivals at the same time are scheduled in the same
order. -/
theorem arrivals_reproducible (ha : fe.Agree fe') (hscenario : env'.scenario = env.scenario)
    (hdraws : OnlyRowDraws env.scenario drawer) (h : Complete fe env s)
    (h' : Complete fe' env' s') (hstart : s'.ws.startTime = s.ws.startTime)
    (hend : s'.ws.endTime = s.ws.endTime) :
    s.ws.log.Perm s'.ws.log ∧ (Apart s.ws.log → ∀ t : Time,
      s.ws.log.filter (fun e => e.1 = t) = s'.ws.log.filter fun e => e.1 = t) := by
  obtain ⟨-, -, n, hr, hc⟩ := h.run.kept (kept_inRounds hdraws) h.noError h.standard
  obtain ⟨-, -, _, hr', hc'⟩ :=
    h'.run.kept (kept_inRounds (hscenario ▸ hdraws)) h'.noError h'.standard
  rw [← h.run.regular.horizon h.standard, h.horizon] at hc
  rw [← h'.run.regular.horizon h'.standard, h'.horizon] at hc'
  rw [hstart, hend] at hr' hc'
  rw [hscenario] at hr'
  have hag := ha.rounds hr'
  obtain rfl := hr.count_unique hag hc.symm hc'.symm
  have hk : ∀ key, keyLog key s.ws.log = keyLog key s'.ws.log := fun key =>
    congrFun (congrArg Snapshot.logs (hr.unique hag)) key
  have hs := h.run.kept kept_log
  have hp := perm_of_keyLog hs (h'.run.kept kept_log) hk
  exact ⟨hp, fun hap t => filter_time_eq hp hap hs hk t⟩

/-- A generator whose exponential draws are the natural numbers, and which visits the patterns in
the order in which they were written. -/
def Feed.counting : Feed where
  source := { value := fun h d => match d with
                | .float64 => 0
                | _ => h.length + 1
              float64_nonneg := Feed.still.source.float64_nonneg
              float64_lt_one := Feed.still.source.float64_lt_one
              expFloat64_nonneg := fun h => by positivity }
  sqrt := id
  order _ keys := keys
  order_perm _ _ := .refl _

/-- The same generator, visiting the patterns in the opposite order. -/
def Feed.countingBack : Feed :=
  { Feed.counting with order := fun _ keys => keys.reverse
                       order_perm := fun _ keys => keys.reverse_perm }

theorem agree_counting : Feed.counting.Agree .countingBack :=
  ⟨rfl, rfl⟩

def poissonRow (source target : String) : WorkloadPattern where
  source := source
  target := target
  arrival := { type := "poisson", rateRPS := 1 }

/-- A trial that has generated all its arrivals within ten seconds is complete. -/
theorem complete_trial (fe : Feed) (sc : Scenario) (hc : canStart sc {} = true)
    {p : Simulation → Bool}
    (htr : (trial fe (.still sc) 30 (10 * second) false []).toOption.any (fun s =>
      (s.ws.realTimeMode == false && s.state.eng.guardErr.isNone &&
        decide (s.ws.generatedHorizon = s.ws.endTime) && decide (s.ws.startTime = 0) &&
        decide (s.ws.endTime = 10 * second)) && p s) = true) :
    ∃ s, Complete fe (.still sc) s ∧ s.ws.startTime = 0 ∧ s.ws.endTime = 10 * second ∧
      p s = true := by
  obtain ⟨s, htr, ht⟩ := exists_of_trial htr
  simp only [Bool.and_eq_true, beq_iff_eq, Option.isNone_iff_eq_none, decide_eq_true_eq] at ht
  obtain ⟨⟨⟨⟨⟨hm, hn⟩, hh⟩, hs⟩, he⟩, ht⟩ := ht
  exact ⟨s, ⟨runBy_trial hc (fun a ha => by simp at ha) (by decide) htr, hm, hn, hh⟩, hs, he, ht⟩

/-- One row with arrivals every four seconds, and one with Poisson arrivals. -/
def oneDrawer : Scenario :=
  manyRows [constantRow "client" "api:/" (1 / 4), poissonRow "client" "db:/"]

theorem onlyDraws_oneDrawer : OnlyRowDraws oneDrawer "client:db:/" := by
  unfold OnlyRowDraws
  decide +kernel

/-- The order of the visits does not matter if only one of two rows draws. -/
theorem arrivals_reproducible_oneDrawer : ∃ s s', Complete .counting (.still oneDrawer) s ∧
    Complete .countingBack (.still oneDrawer) s' ∧ s.ws.log.length = 5 ∧ Apart s.ws.log ∧
    s.ws.log.Perm s'.ws.log ∧ ∀ t : Time,
      s.ws.log.filter (fun e => e.1 = t) = s'.ws.log.filter fun e => e.1 = t := by
  obtain ⟨s, hc, hst, he, ht⟩ := complete_trial .counting oneDrawer
    (p := fun s => decide (s.ws.log.length = 5) && s.ws.log.all fun e => s.ws.log.all fun e' =>
      decide (e.1 = e'.1 → e.2.spec.map Prod.fst = e'.2.spec.map Prod.fst))
    (by decide +kernel) (by decide +kernel)
  obtain ⟨s', hc', hs', he', -⟩ := complete_trial .countingBack oneDrawer
    (p := fun _ => true) (by decide +kernel) (by decide +kernel)
  simp only [Bool.and_eq_true, decide_eq_true_eq, all_eq_true] at ht
  obtain ⟨hl, hap⟩ := ht
  have hs := arrivals_reproducible agree_counting rfl onlyDraws_oneDrawer hc hc'
    (hs'.trans hst.symm) (he'.trans he.symm)
  exact ⟨s, s', hc, hc', hl, hap, hs.1, hs.2 hap⟩

/-- Two rows with Poisson arrivals. -/
def twoDrawers : Scenario :=
  manyRows [poissonRow "client" "api:/", poissonRow "client" "db:/"]

/-- Two rows with Poisson arrivals have other arrivals if they are visited in another order: an
arrival after five seconds comes in one run only. -/
theorem arrivals_depend_on_order : ∃ s s', Complete .counting (.still twoDrawers) s ∧
    Complete .countingBack (.still twoDrawers) s' ∧ Feed.counting.Agree .countingBack ∧
    s'.ws.startTime = s.ws.startTime ∧ s'.ws.endTime = s.ws.endTime ∧
    ¬ s.ws.log.Perm s'.ws.log := by
  obtain ⟨s, hc, hs, he, ht⟩ := complete_trial .counting twoDrawers
    (p := fun s => decide (5 * second ∉ s.ws.log.map Prod.fst)) (by decide +kernel)
    (by decide +kernel)
  obtain ⟨s', hc', hs', he', ht'⟩ := complete_trial .countingBack twoDrawers
    (p := fun s => decide (5 * second ∈ s.ws.log.map Prod.fst))
    (by decide +kernel) (by decide +kernel)
  refine ⟨s, s', hc, hc', agree_counting, hs'.trans hs.symm, he'.trans he.symm, fun hp => ?_⟩
  exact of_decide_eq_true ht ((hp.map Prod.fst).mem_iff.2 (of_decide_eq_true ht'))

end SimCore.Workload
