import SimCore.Config.Validate

/-!
# Arrival processes

The workload generator draws from one random source with a fixed seed. A draw depends on the draws
made before it only through their kinds, so the source is a function of the history of kinds.

## Main definitions

* `RandSource`: a random source, with the draws that the generator makes
* `calculateNextArrivalTime`: the arrival after a given one, for every arrival type but `uniform`

## Main results

* `le_calculateNextArrivalTime`: the next arrival is not before the given one
* `calculateNextArrivalTime_constant`: a constant rate draws nothing
-/

namespace SimCore.Workload

open Config

/-! ### Random draws -/

/-- The kinds of draws from a random source. -/
inductive Draw where
  | float64
  | expFloat64
  | normFloat64
deriving DecidableEq

/-- The draws made so far, the latest first. -/
abbrev History := List Draw

/-- A random source with a fixed seed. -/
structure RandSource where
  value : History → Draw → ℚ
  float64_nonneg : ∀ h, 0 ≤ value h .float64
  float64_lt_one : ∀ h, value h .float64 < 1
  expFloat64_nonneg : ∀ h, 0 ≤ value h .expFloat64

namespace RandSource

variable (src : RandSource)

/-- An exponentially distributed number with the given rate. -/
def expFloat64 (lambda : ℚ) (h : History) : ℚ × History :=
  (src.value h .expFloat64 / lambda, .expFloat64 :: h)

/-- A normally distributed number. -/
def normFloat64 (mean stddev : ℚ) (h : History) : ℚ × History :=
  (src.value h .normFloat64 * stddev + mean, .normFloat64 :: h)

/-- A coin with the given probability. -/
def bernoulliBool (p : ℚ) (h : History) : Bool × History :=
  (decide (src.value h .float64 < p), .float64 :: h)

/-- A uniformly distributed number. -/
def uniformFloat64 (min max : ℚ) (h : History) : ℚ × History :=
  (min + src.value h .float64 * (max - min), .float64 :: h)

end RandSource

/-- Why a function of the generator does not return: it reports an error, it crashes, or it needs
more turns of a loop than it is given. -/
inductive Halt where
  | failed (message : String)
  | crashed (message : String)
  | unfinished
deriving DecidableEq

/-! ### Arrival times -/

/-- The rate that takes the place of an invalid one. -/
def defaultFallbackRateRPS : ℚ := 1

/-- The standard deviation of the rate, as a fraction of it, that takes the place of an invalid
one. -/
def defaultStdDevPercentage : ℚ := 1 / 10

def minInterArrivalTimeSeconds : ℚ := 1 / 1000

/-- `t.Add(time.Duration(seconds * float64(time.Second)))`. -/
def addSeconds (t : Time) (seconds : ℚ) : Time :=
  t + secondsToDuration seconds

/-- A drawn distance is not shorter than the least one. -/
def atLeastMin (x : ℚ) : ℚ :=
  if x < minInterArrivalTimeSeconds then minInterArrivalTimeSeconds else x

/-- A rate that is not positive is replaced. -/
def rateOrFallback (rate : ℚ) : ℚ :=
  if rate ≤ 0 then defaultFallbackRateRPS else rate

/-- The parameters of a bursty arrival process, with their defaults. -/
structure Burst where
  baseRate : ℚ
  burstRate : ℚ
  burstDuration : ℚ
  quietDuration : ℚ

/-- The parameters that an arrival spec gives. -/
def burstOf (a : ArrivalSpec) : Burst :=
  let baseRate := if a.rateRPS ≤ 0 then 10 else a.rateRPS
  { baseRate := baseRate
    burstRate := if a.burstRateRPS > 0 then a.burstRateRPS else baseRate * 5
    burstDuration := if a.burstDurationSeconds > 0 then a.burstDurationSeconds else 5
    quietDuration := if a.quietDurationSeconds > 0 then a.quietDurationSeconds else 10 }

def Burst.cycleDuration (b : Burst) : ℚ :=
  b.burstDuration + b.quietDuration

/-- The number of the cycle at some time after the epoch. -/
def Burst.cycleNumber (b : Burst) (timeSinceEpoch : ℚ) : Int :=
  ⌊timeSinceEpoch / b.cycleDuration⌋

/-- Whether there are arrivals at some time after the epoch. -/
def Burst.inBurst (b : Burst) (timeSinceEpoch : ℚ) : Bool :=
  decide (timeSinceEpoch - b.cycleNumber timeSinceEpoch * b.cycleDuration < b.burstDuration)

/-- The first start of a burst that comes after `t`, the burst of the cycle after the given one or
the burst after that. -/
def Burst.nextBurstStart (b : Burst) (epoch : Time) (cycle : Int) (t : Time) : Time :=
  let next := addSeconds epoch ((cycle + 1 : Int) * b.cycleDuration)
  if next > t then next else addSeconds epoch ((cycle + 2 : Int) * b.cycleDuration)

/-- The search for the next arrival of a bursty process. -/
def burstyLoop (src : RandSource) (b : Burst) (epoch : Time) :
    Nat → Time → History → Except Halt (Time × History)
  | 0, _, _ => .error (.crashed "bursty: exceeded iteration limit; check burst/quiet durations")
  | n + 1, t, h =>
    let t := if durationToSeconds (t - epoch) < 0 then epoch else t
    let timeSinceEpoch := durationToSeconds (t - epoch)
    if b.inBurst timeSinceEpoch then
      let (x, h) := src.expFloat64 b.burstRate h
      let candidate := addSeconds t (atLeastMin x)
      let timeSinceEpoch := durationToSeconds (candidate - epoch)
      if b.inBurst timeSinceEpoch then .ok (candidate, h)
      else burstyLoop src b epoch n (b.nextBurstStart epoch (b.cycleNumber timeSinceEpoch) t) h
    else burstyLoop src b epoch n (b.nextBurstStart epoch (b.cycleNumber timeSinceEpoch) t) h

/-- The next arrival of a bursty process after the last one. -/
def burstyNextArrivalTime (src : RandSource) (epoch lastEventTime : Time) (a : ArrivalSpec)
    (h : History) : Except Halt (Time × History) :=
  let b := burstOf a
  if b.cycleDuration ≤ 0 ∨ b.burstDuration ≤ 0 then
    let (x, h) := src.expFloat64 b.baseRate h
    .ok (addSeconds lastEventTime (atLeastMin x), h)
  else burstyLoop src b epoch 100000 (if lastEventTime < epoch then epoch else lastEventTime) h

/-- The next arrival after one at `currentTime`. -/
def calculateNextArrivalTime (src : RandSource) (a : ArrivalSpec) (currentTime epoch : Time)
    (h : History) : Except Halt (Time × History) :=
  if a.type = "poisson" ∨ a.type = "exponential" then
    let (x, h) := src.expFloat64 (rateOrFallback a.rateRPS) h
    .ok (addSeconds currentTime (atLeastMin x), h)
  else if a.type = "constant" then
    .ok (addSeconds currentTime (1 / rateOrFallback a.rateRPS), h)
  else if a.type = "normal" ∨ a.type = "gaussian" then
    let mean := rateOrFallback a.rateRPS
    let stddev := if a.stdDevRPS ≤ 0 then mean * defaultStdDevPercentage else a.stdDevRPS
    let (x, h) := src.normFloat64 (1 / mean) (stddev / (mean * mean)) h
    .ok (addSeconds currentTime (atLeastMin x), h)
  else if a.type = "bursty" then burstyNextArrivalTime src epoch currentTime a h
  else .error (.crashed ("workload: unsupported arrival type " ++ quote a.type ++
    " (expected validated scenario)"))

/-! ### Arrivals only move forward -/

variable {t epoch t' : Time} {src : RandSource} {h h' : History} {a : ArrivalSpec}

theorem le_addSeconds {x : ℚ} (hx : 0 ≤ x) : t ≤ addSeconds t x :=
  le_add_of_nonneg_right (secondsToDuration_nonneg hx)

theorem lt_addSeconds {x : ℚ} (hx : durationToSeconds 1 ≤ x) : t < addSeconds t x := by
  have ho : (0 : ℚ) ≤ durationToSeconds 1 := by norm_num [durationToSeconds, second]
  have hle := le_secondsToDuration (ho.trans hx) hx
  exact lt_add_of_pos_right t (Int.zero_lt_one.trans_le hle)

theorem lt_addSeconds_atLeastMin (t : Time) (x : ℚ) : t < addSeconds t (atLeastMin x) := by
  have ho : durationToSeconds 1 ≤ minInterArrivalTimeSeconds := by
    norm_num [durationToSeconds, second, minInterArrivalTimeSeconds]
  refine lt_addSeconds (ho.trans ?_)
  unfold atLeastMin
  split_ifs with hx
  · exact le_rfl
  · exact not_lt.1 hx

theorem rateOrFallback_pos (rate : ℚ) : 0 < rateOrFallback rate := by
  unfold rateOrFallback
  split_ifs with hr
  · norm_num [defaultFallbackRateRPS]
  · exact not_le.1 hr

namespace Burst

variable {b : Burst} {epoch t u : Time}

/-- The cycle after the one of a time begins later. -/
theorem lt_next_cycle (hb : 0 < b.cycleDuration) (x : ℚ) :
    x < ((b.cycleNumber x + 1 : Int) : ℚ) * b.cycleDuration := by
  have hlt : x / b.cycleDuration < b.cycleNumber x + 1 := Int.lt_floor_add_one _
  rw [div_lt_iff₀ hb] at hlt
  push_cast
  exact hlt

/-- The next burst after a time at or after the epoch does not begin before it. -/
theorem le_nextBurstStart (hb : 0 < b.cycleDuration) (hu : epoch ≤ u) (htu : t ≤ u) :
    t ≤ b.nextBurstStart epoch (b.cycleNumber (durationToSeconds (u - epoch))) t := by
  have hs := durationToSeconds_nonneg (sub_nonneg.2 hu)
  have hn := lt_next_cycle hb (durationToSeconds (u - epoch))
  have ha : durationToSeconds (u - epoch) ≤
      ((b.cycleNumber (durationToSeconds (u - epoch)) + 2 : Int) : ℚ) * b.cycleDuration := by
    push_cast at hn ⊢
    linarith
  unfold nextBurstStart
  simp only
  split_ifs with hlt
  · exact hlt.le
  · have hle := le_secondsToDuration (hs.trans ha) ha
    rw [addSeconds]
    linarith

end Burst

theorem lt_burstyLoop {b : Burst} (hb : 0 < b.cycleDuration) {n : Nat}
    (hok : burstyLoop src b epoch n t h = .ok (t', h')) : t < t' := by
  induction n generalizing t h with
  | zero => cases hok
  | succ n ih =>
    -- the search goes on from the epoch if it started before it
    obtain ⟨s, hs, hts, he⟩ : ∃ s, (if durationToSeconds (t - epoch) < 0 then epoch else t) = s ∧
        t ≤ s ∧ epoch ≤ s := by
      have hneg : durationToSeconds (t - epoch) < 0 ↔ t < epoch := by
        rw [durationToSeconds, div_neg_iff]
        norm_num [second]
      simp only [hneg]
      rcases lt_or_ge t epoch with hlt | hge
      · exact ⟨epoch, if_pos hlt, hlt.le, le_rfl⟩
      · exact ⟨t, if_neg (not_lt.2 hge), le_rfl, hge⟩
    have hc := lt_addSeconds_atLeastMin s (src.value h .expFloat64 / b.burstRate)
    rw [burstyLoop] at hok
    simp only [hs, RandSource.expFloat64] at hok
    by_cases hn : b.inBurst (durationToSeconds (s - epoch)) = true
    · rw [if_pos hn] at hok
      generalize addSeconds s (atLeastMin (src.value h .expFloat64 / b.burstRate)) = candidate
        at hok hc
      by_cases ht : b.inBurst (durationToSeconds (candidate - epoch)) = true
      · rw [if_pos ht] at hok
        cases hok
        exact hts.trans_lt hc
      · rw [if_neg ht] at hok
        exact hts.trans_lt
          ((Burst.le_nextBurstStart hb (he.trans hc.le) hc.le).trans_lt (ih hok))
    · rw [if_neg hn] at hok
      exact hts.trans_lt ((Burst.le_nextBurstStart hb he le_rfl).trans_lt (ih hok))

theorem lt_burstyNextArrivalTime (hok : burstyNextArrivalTime src epoch t a h = .ok (t', h')) :
    t < t' := by
  unfold burstyNextArrivalTime at hok
  simp only [RandSource.expFloat64] at hok
  split at hok
  · cases hok
    exact lt_addSeconds_atLeastMin t _
  · rename_i hc
    refine lt_of_le_of_lt ?_ (lt_burstyLoop (not_le.1 fun h => hc (.inl h)) hok)
    split_ifs with hlt
    · exact hlt.le
    · exact le_rfl

theorem le_calculateNextArrivalTime
    (hok : calculateNextArrivalTime src a t epoch h = .ok (t', h')) : t ≤ t' := by
  unfold calculateNextArrivalTime at hok
  split at hok
  · cases hok
    exact (lt_addSeconds_atLeastMin t _).le
  split at hok
  · cases hok
    exact le_addSeconds (one_div_nonneg.2 (rateOrFallback_pos _).le)
  split at hok
  · cases hok
    exact (lt_addSeconds_atLeastMin t _).le
  split at hok
  · exact (lt_burstyNextArrivalTime hok).le
  · cases hok

theorem calculateNextArrivalTime_constant (ha : a.type = "constant") (src : RandSource)
    (t epoch : Time) (h : History) :
    calculateNextArrivalTime src a t epoch h =
      .ok (addSeconds t (1 / rateOrFallback a.rateRPS), h) := by
  simp [calculateNextArrivalTime, ha]

/-- The next arrival is later than the last one, unless a constant rate puts more than one arrival
into a nanosecond. -/
theorem lt_calculateNextArrivalTime (ha : a.type = "constant" → a.rateRPS ≤ second)
    (hok : calculateNextArrivalTime src a t epoch h = .ok (t', h')) : t < t' := by
  by_cases hc : a.type = "constant"
  · rw [calculateNextArrivalTime_constant hc] at hok
    cases hok
    refine lt_addSeconds ?_
    have hr : rateOrFallback a.rateRPS ≤ second := by
      rw [rateOrFallback]
      split
      · norm_num [defaultFallbackRateRPS, second]
      · exact ha hc
    exact one_div_le_one_div_of_le (rateOrFallback_pos _) hr
  · unfold calculateNextArrivalTime at hok
    split at hok
    · cases hok
      exact lt_addSeconds_atLeastMin t _
    split at hok
    · cases hok
      exact lt_addSeconds_atLeastMin t _
    split at hok
    · exact lt_burstyNextArrivalTime hok
    · cases hok

end SimCore.Workload
