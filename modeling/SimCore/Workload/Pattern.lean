import SimCore.Workload.Arrivals
import Mathlib.Data.List.Sort

/-!
# Workload patterns

The state of one workload pattern. A pattern of type `uniform` keeps a sorted schedule of sampled
arrivals, a cursor into it and the watermark up to which it has been sampled. It is extended chunk
by chunk; in standard mode the arrivals that a run has to have in total are distributed over the
chunks.

The generator never reads `sampled`, `stalled`, `revisions` and `revised`. They record the arrivals
sampled so far, whether the schedule was given up with arrivals left to distribute, the times at
which the pattern was updated, and the last of them if no arrivals were generated since.

## Main definitions

* `PatternState`, `PatternState.upcoming`: a pattern, and the arrivals still in its schedule
* `ensureUniformHorizon`: extends the schedule of a uniform pattern
* `advanceToNextArrival`: the arrival after one that has been scheduled
* `PatternState.Sound`, `Extends`: what holds of a schedule, and what extending it does

## Main results

* `extends_ensureUniformHorizon`: extending a schedule only appends to it
* `advanceToNextArrival_uniform`: a uniform pattern walks through its schedule
-/

namespace SimCore.Workload

open Config List

/-- How far ahead arrivals are generated. -/
def eventGenerationLookaheadWindow : Int := 10 * second

/-- The cursor from which on the consumed part of a schedule is dropped. -/
def uniformCompactionThreshold : Nat := 2048

/-- What the generator is given: its random source, the square root, and the order in which each of
its iterations visits the patterns. -/
structure Feed where
  source : RandSource
  sqrt : ℚ → ℚ
  order : Nat → List String → List String
  order_perm : ∀ i keys, (order i keys).Perm keys

structure PatternState where
  pattern : WorkloadPattern
  serviceID : String
  endpointPath : String
  epoch : Time
  lastEventTime : Time
  nextEventTime : Time
  uniformTimes : List Time := []
  uniformCursor : Nat := 0
  uniformLazy : Bool := false
  uniformStreamWatermark : Time := 0
  uniformGlobalCountMode : Bool := false
  uniformRemaining : Int := 0
  active : Bool := true
  sampled : List Time := []
  stalled : Bool := false
  revisions : List Time := []
  revised : Option Time := none

namespace PatternState

/-- Whether arrivals are placed uniformly. -/
def uniform (ps : PatternState) : Bool :=
  ps.pattern.arrival.type == "uniform"

/-- The arrivals still in the schedule. -/
def upcoming (ps : PatternState) : List Time :=
  ps.uniformTimes.drop ps.uniformCursor

/-- Gives the schedule up; this is noted if arrivals are left to distribute. -/
def exhausted (ps : PatternState) : PatternState :=
  { ps with stalled := ps.stalled || decide (ps.uniformRemaining > 0) }

end PatternState

/-! ### Sampling -/

/-- `n` independent uniform draws from an interval; one after its end is dropped. -/
def placeLoop (src : RandSource) (startTime endTime : Time) (totalSeconds : ℚ) :
    Nat → History → List Time × History
  | 0, h => ([], h)
  | n + 1, h =>
    let (offsetSeconds, h) := src.uniformFloat64 0 totalSeconds h
    let arrivalTime := addSeconds startTime offsetSeconds
    let (times, h) := placeLoop src startTime endTime totalSeconds n h
    (if arrivalTime > endTime then times else arrivalTime :: times, h)

/-- Sorted times of `n` arrivals in an interval. -/
def uniformPlaceNInInterval (src : RandSource) (startTime endTime : Time) (n : Int) (h : History) :
    List Time × History :=
  let totalSeconds := durationToSeconds (endTime - startTime)
  if n ≤ 0 ∨ totalSeconds ≤ 0 then ([], h)
  else
    let (times, h) := placeLoop src startTime endTime totalSeconds n.toNat h
    (times.insertionSort (· ≤ ·), h)

/-- The arrivals of one chunk in real-time mode. -/
def sampleLazyUniformChunk (src : RandSource) (chunkStart chunkEnd : Time) (rateRPS : ℚ)
    (epoch : Time) (h : History) : List Time × History :=
  let sec0 := durationToSeconds (chunkStart - epoch)
  let sec1 := durationToSeconds (chunkEnd - epoch)
  if sec1 ≤ sec0 then ([], h)
  else
    let sec0 := if sec0 < 0 then 0 else sec0
    let n := ⌊rateRPS * sec1⌋ - ⌊rateRPS * sec0⌋
    uniformPlaceNInInterval src chunkStart chunkEnd (if n < 0 then 0 else n) h

/-- The number of heads in `n` coin tosses. -/
def bernoulliSum (src : RandSource) (p : ℚ) : Nat → History → Int × History
  | 0, h => (0, h)
  | n + 1, h =>
    let (heads, h) := src.bernoulliBool p h
    let (out, h) := bernoulliSum src p n h
    (if heads then out + 1 else out, h)

/-- A binomially distributed number; for many tosses the normal approximation. -/
def sampleBinomial (fe : Feed) (n : Int) (p : ℚ) (h : History) : Int × History :=
  if n ≤ 0 ∨ p ≤ 0 then (0, h)
  else if p ≥ 1 then (n, h)
  else if n ≤ 200000 then bernoulliSum fe.source p n.toNat h
  else
    let (x, h) := fe.source.normFloat64 (n * p) (fe.sqrt (n * p * (1 - p))) h
    let val := roundHalfAway x
    (if val < 0 then 0 else if val > n then n else val, h)

/-- How many of the remaining arrivals fall into a chunk, and how many remain after it. -/
def sampleGlobalUniformChunkCount (fe : Feed) (endTime : Time) (remaining : Int)
    (chunkStart chunkEnd : Time) (h : History) : (Int × Int) × History :=
  if ¬ chunkStart < chunkEnd ∨ remaining ≤ 0 then ((0, remaining), h)
  else if ¬ chunkEnd < endTime then ((remaining, 0), h)
  else
    let remainingDuration := durationToSeconds (endTime - chunkStart)
    if remainingDuration ≤ 0 then ((remaining, 0), h)
    else
      let p := durationToSeconds (chunkEnd - chunkStart) / remainingDuration
      if p ≤ 0 then ((0, remaining), h)
      else if p ≥ 1 then ((remaining, 0), h)
      else
        let (n, h) := sampleBinomial fe remaining p h
        let n := if n > remaining then remaining else n
        ((n, remaining - n), h)

/-! ### The schedule of a uniform pattern -/

/-- The arrivals of the next chunk, and how many remain after it. -/
def chunkArrivals (fe : Feed) (endTime chunkEnd : Time) (ps : PatternState) (h : History) :
    (List Time × Int) × History :=
  let chunkStart := ps.uniformStreamWatermark
  if ps.uniformGlobalCountMode then
    let ((n, remaining), h) :=
      sampleGlobalUniformChunkCount fe endTime ps.uniformRemaining chunkStart chunkEnd h
    let (part, h) := uniformPlaceNInInterval fe.source chunkStart chunkEnd n h
    ((part, remaining), h)
  else
    let (part, h) := sampleLazyUniformChunk fe.source chunkStart chunkEnd
      ps.pattern.arrival.rateRPS ps.epoch h
    ((part, ps.uniformRemaining), h)

/-- Samples the next chunk and sorts the part of the schedule that is not consumed. -/
def sampleChunk (fe : Feed) (endTime chunkEnd : Time) (ps : PatternState) (h : History) :
    PatternState × History :=
  let ((part, remaining), h) := chunkArrivals fe endTime chunkEnd ps h
  let times := ps.uniformTimes ++ part
  ({ ps with
      uniformTimes := times.take ps.uniformCursor ++
        (times.drop ps.uniformCursor).insertionSort (· ≤ ·)
      uniformStreamWatermark := chunkEnd
      uniformRemaining := remaining
      sampled := ps.sampled ++ part }, h)

/-- Samples chunks until the schedule covers a time. -/
def ensureLoop (fe : Feed) (endTime coverThrough : Time) :
    Nat → PatternState → History → PatternState × History
  | 0, ps, h => (ps, h)
  | n + 1, ps, h =>
    if ps.uniformStreamWatermark < coverThrough ∧ ps.uniformStreamWatermark < endTime then
      let chunkEnd := ps.uniformStreamWatermark + eventGenerationLookaheadWindow
      let chunkEnd := if chunkEnd > endTime then endTime else chunkEnd
      if ps.uniformStreamWatermark < chunkEnd then
        let (ps, h) := sampleChunk fe endTime chunkEnd ps h
        ensureLoop fe endTime coverThrough n ps h
      else (ps, h)
    else (ps, h)

/-- Drops the consumed part of a long schedule. -/
def compactUniformSchedule (ps : PatternState) : PatternState :=
  if !ps.uniformLazy || ps.uniformCursor < uniformCompactionThreshold then ps
  else if ps.uniformCursor ≥ ps.uniformTimes.length then
    { ps with uniformTimes := [], uniformCursor := 0 }
  else { ps with uniformTimes := ps.uniformTimes.drop ps.uniformCursor, uniformCursor := 0 }

/-- Extends the schedule of a uniform pattern so that it covers a time. Every chunk but the last has
the length of the lookahead window, which bounds the number of chunks. -/
def ensureUniformHorizon (fe : Feed) (endTime : Time) (ps : PatternState) (coverThrough : Time)
    (h : History) : PatternState × History :=
  if !ps.uniformLazy then (ps, h)
  else
    let coverThrough := if coverThrough > endTime then endTime else coverThrough
    let chunks :=
      ((coverThrough - ps.uniformStreamWatermark) / eventGenerationLookaheadWindow).toNat + 1
    let (ps, h) := ensureLoop fe endTime coverThrough chunks ps h
    (compactUniformSchedule ps, h)

/-- The arrival after the one scheduled at `scheduledAt`. -/
def advanceToNextArrival (fe : Feed) (endTime : Time) (ps : PatternState) (scheduledAt : Time)
    (h : History) : Except Halt ((Time × PatternState) × History) :=
  if !ps.uniform then
    match calculateNextArrivalTime fe.source ps.pattern.arrival scheduledAt ps.epoch h with
    | .ok (next, h) => .ok ((next, ps), h)
    | .error halt => .error halt
  else
    let (ps, h) := ensureUniformHorizon fe endTime ps
      (scheduledAt + eventGenerationLookaheadWindow) h
    if ps.uniformTimes.isEmpty then .ok ((endTime, ps.exhausted), h)
    else
      let ps := compactUniformSchedule { ps with uniformCursor := ps.uniformCursor + 1 }
      match ps.uniformTimes[ps.uniformCursor]? with
      | some next => .ok ((next, ps), h)
      | none =>
        if ps.uniformLazy && ps.uniformStreamWatermark < endTime then
          let (ps, h) := ensureUniformHorizon fe endTime ps
            (ps.uniformStreamWatermark + eventGenerationLookaheadWindow) h
          match ps.uniformTimes[ps.uniformCursor]? with
          | some next => .ok ((next, ps), h)
          | none => .ok ((endTime, ps.exhausted), h)
        else .ok ((endTime, ps.exhausted), h)

/-! ### Sampled times and counts -/

section Sampling

variable {src : RandSource} {fe : Feed} {endTime : Time} {h : History}

theorem uniformFloat64_mem (src : RandSource) {total : ℚ} (ht : 0 < total) (h : History) :
    0 ≤ (src.uniformFloat64 0 total h).1 ∧ (src.uniformFloat64 0 total h).1 < total := by
  simp only [RandSource.uniformFloat64, zero_add, sub_zero]
  exact ⟨mul_nonneg (src.float64_nonneg h) ht.le, mul_lt_of_lt_one_left ht (src.float64_lt_one h)⟩

/-- Every draw is kept, and lies in the interval. -/
theorem placeLoop_spec (src : RandSource) {startTime finish : Time} (hlt : startTime < finish)
    (n : Nat) (h : History) :
    (placeLoop src startTime finish (durationToSeconds (finish - startTime)) n h).1.length = n ∧
      ∀ t ∈ (placeLoop src startTime finish (durationToSeconds (finish - startTime)) n h).1,
        startTime ≤ t ∧ t < finish := by
  induction n generalizing h with
  | zero => simp [placeLoop]
  | succ n ih =>
    obtain ⟨hn, hb⟩ := uniformFloat64_mem src
      (durationToSeconds_pos.2 (sub_pos.2 hlt)) h
    have hs := secondsToDuration_lt hn hb
    have hl := le_addSeconds (t := startTime) hn
    have hh : addSeconds startTime (src.uniformFloat64 0
        (durationToSeconds (finish - startTime)) h).1 < finish := by
      rw [addSeconds]
      linarith
    rw [placeLoop]
    simp only [if_neg (not_lt.2 hh.le), length_cons, ih _, mem_cons, true_and]
    rintro t (rfl | ht)
    · exact ⟨hl, hh⟩
    · exact (ih _).2 t ht

/-- The placed times are sorted, lie in the interval and are as many as asked for. -/
theorem uniformPlaceNInInterval_spec (src : RandSource) {startTime finish : Time}
    (hlt : startTime < finish) (n : Int) (h : History) :
    ((uniformPlaceNInInterval src startTime finish n h).1.Pairwise (· ≤ ·)) ∧
      ((uniformPlaceNInInterval src startTime finish n h).1.length : Int) = max n 0 ∧
      ∀ t ∈ (uniformPlaceNInInterval src startTime finish n h).1, startTime ≤ t ∧ t < finish := by
  have hp := durationToSeconds_pos.2 (sub_pos.2 hlt)
  unfold uniformPlaceNInInterval
  simp only [not_le.2 hp, or_false]
  split_ifs with hn
  · simp [hn]
  · obtain ⟨hl, hm⟩ := placeLoop_spec src hlt n.toNat h
    refine ⟨pairwise_insertionSort _ _, ?_, ?_⟩
    · rw [length_insertionSort, hl]
      omega
    · intro t ht
      exact hm t ((mem_insertionSort _).1 ht)

theorem sampleLazyUniformChunk_spec (src : RandSource) (rate : ℚ) (epoch : Time)
    {chunkStart chunkEnd : Time} (hlt : chunkStart < chunkEnd) (h : History) :
    ((sampleLazyUniformChunk src chunkStart chunkEnd rate epoch h).1.Pairwise (· ≤ ·)) ∧
      ∀ t ∈ (sampleLazyUniformChunk src chunkStart chunkEnd rate epoch h).1,
        chunkStart ≤ t ∧ t < chunkEnd := by
  unfold sampleLazyUniformChunk
  simp only
  generalize hn :
    (if ⌊rate * durationToSeconds (chunkEnd - epoch)⌋ - _ < 0 then (0 : Int) else _) = n
  split
  · simp
  · obtain ⟨hs, -, hm⟩ := uniformPlaceNInInterval_spec src hlt n h
    exact ⟨hs, hm⟩

theorem bernoulliSum_mem (p : ℚ) (n : Nat) (h : History) :
    0 ≤ (bernoulliSum src p n h).1 ∧ (bernoulliSum src p n h).1 ≤ n := by
  induction n generalizing h with
  | zero => simp [bernoulliSum]
  | succ n ih =>
    rw [bernoulliSum]
    have hr := ih (src.bernoulliBool p h).2
    simp only
    split <;> push_cast <;> omega

theorem sampleBinomial_nonneg (fe : Feed) {n : Int} {p : ℚ} : 0 ≤ (sampleBinomial fe n p h).1 := by
  unfold sampleBinomial
  split
  · exact le_rfl
  split
  · omega
  split
  · exact (bernoulliSum_mem p n.toNat h).1
  · simp only
    split <;> (try split) <;> omega

/-- A chunk takes its share of the remaining arrivals. -/
theorem sampleGlobalUniformChunkCount_spec (fe : Feed) (endTime chunkStart chunkEnd : Time)
    {remaining : Int} (hr : 0 ≤ remaining) :
    0 ≤ (sampleGlobalUniformChunkCount fe endTime remaining chunkStart chunkEnd h).1.1 ∧
      0 ≤ (sampleGlobalUniformChunkCount fe endTime remaining chunkStart chunkEnd h).1.2 ∧
      (sampleGlobalUniformChunkCount fe endTime remaining chunkStart chunkEnd h).1.1 +
        (sampleGlobalUniformChunkCount fe endTime remaining chunkStart chunkEnd h).1.2 =
          remaining := by
  unfold sampleGlobalUniformChunkCount
  split
  · simp [hr]
  split
  · simp [hr]
  simp only
  split
  · simp [hr]
  split
  · simp [hr]
  split
  · simp [hr]
  · have hn := sampleBinomial_nonneg fe (h := h) (n := remaining)
      (p := durationToSeconds (chunkEnd - chunkStart) / durationToSeconds (endTime - chunkStart))
    split <;> dsimp only <;> omega

end Sampling

/-! ### Extending a schedule -/

namespace PatternState

/-- What holds of the schedule of a uniform pattern: the part that is not consumed is sorted, and
lies before the watermark and the end of the run. -/
structure Sound (endTime : Time) (ps : PatternState) : Prop where
  cursor_le : ps.uniformCursor ≤ ps.uniformTimes.length
  sorted : ps.upcoming.Pairwise (· ≤ ·)
  covered : ∀ t ∈ ps.upcoming, t < ps.uniformStreamWatermark
  inRun : ∀ t ∈ ps.upcoming, t < endTime
  remaining_nonneg : 0 ≤ ps.uniformRemaining

/-- The part of a pattern that the work on its schedule leaves alone. -/
def frame (ps : PatternState) : PatternState :=
  { ps with uniformTimes := [], uniformCursor := 0, uniformStreamWatermark := 0
            uniformRemaining := 0, sampled := [], stalled := false }

end PatternState

/-- A schedule has been extended by sampled arrivals. -/
structure Extends (endTime : Time) (ps ps' : PatternState) (new : List Time) : Prop where
  frame : ps'.frame = ps.frame
  stalled : ps'.stalled = ps.stalled
  sound : ps'.Sound endTime
  upcoming : ps'.upcoming = ps.upcoming ++ new
  sampled : ps'.sampled = ps.sampled ++ new
  watermark : ps.uniformStreamWatermark ≤ ps'.uniformStreamWatermark
  late : ∀ t ∈ new, ps.uniformStreamWatermark ≤ t
  counted : ps.uniformGlobalCountMode = true →
    ps'.uniformRemaining + new.length = ps.uniformRemaining

section Schedule

variable {fe : Feed} {endTime : Time} {ps ps' ps'' : PatternState} {new new' : List Time}
  {h : History}

theorem Extends.refl (hs : ps.Sound endTime) : Extends endTime ps ps [] :=
  ⟨rfl, rfl, hs, (append_nil _).symm, (append_nil _).symm, le_rfl, by simp, by simp⟩

theorem Extends.trans (h₁ : Extends endTime ps ps' new) (h₂ : Extends endTime ps' ps'' new') :
    Extends endTime ps ps'' (new ++ new') where
  frame := h₂.frame.trans h₁.frame
  stalled := h₂.stalled.trans h₁.stalled
  sound := h₂.sound
  upcoming := by rw [h₂.upcoming, h₁.upcoming, append_assoc]
  sampled := by rw [h₂.sampled, h₁.sampled, append_assoc]
  watermark := h₁.watermark.trans h₂.watermark
  late t ht := by
    rcases mem_append.1 ht with ht | ht
    · exact h₁.late t ht
    · exact h₁.watermark.trans (h₂.late t ht)
  counted hmode := by
    have hm' : ps'.uniformGlobalCountMode = true :=
      (congrArg PatternState.uniformGlobalCountMode h₁.frame).trans hmode
    have hf := h₁.counted hmode
    have hs := h₂.counted hm'
    rw [length_append]
    omega

theorem chunkArrivals_spec (fe : Feed) (hs : ps.Sound endTime) {chunkEnd : Time}
    (hlt : ps.uniformStreamWatermark < chunkEnd) :
    ((chunkArrivals fe endTime chunkEnd ps h).1.1.Pairwise (· ≤ ·)) ∧
      (∀ t ∈ (chunkArrivals fe endTime chunkEnd ps h).1.1,
        ps.uniformStreamWatermark ≤ t ∧ t < chunkEnd) ∧
      0 ≤ (chunkArrivals fe endTime chunkEnd ps h).1.2 ∧
      (ps.uniformGlobalCountMode = true → (chunkArrivals fe endTime chunkEnd ps h).1.2 +
        (chunkArrivals fe endTime chunkEnd ps h).1.1.length = ps.uniformRemaining) := by
  unfold chunkArrivals
  split_ifs with hm
  · obtain ⟨hn, hle, hsum⟩ := sampleGlobalUniformChunkCount_spec fe endTime
      ps.uniformStreamWatermark chunkEnd (h := h) hs.remaining_nonneg
    obtain ⟨hso, hl, hmem⟩ := uniformPlaceNInInterval_spec fe.source hlt
      (sampleGlobalUniformChunkCount fe endTime ps.uniformRemaining ps.uniformStreamWatermark
        chunkEnd h).1.1 (sampleGlobalUniformChunkCount fe endTime ps.uniformRemaining
        ps.uniformStreamWatermark chunkEnd h).2
    refine ⟨hso, hmem, hle, fun _ => ?_⟩
    rw [hl, max_eq_left hn, add_comm, hsum]
  · obtain ⟨hso, hmem⟩ := sampleLazyUniformChunk_spec fe.source
      ps.pattern.arrival.rateRPS ps.epoch hlt h
    exact ⟨hso, hmem, hs.remaining_nonneg, fun h => absurd h hm⟩

/-- Sampled arrivals come after the ones already there, so that sorting moves nothing. -/
theorem extends_sampleChunk (fe : Feed) (hs : ps.Sound endTime) {chunkEnd : Time}
    (hlt : ps.uniformStreamWatermark < chunkEnd) (hle : chunkEnd ≤ endTime) :
    Extends endTime ps (sampleChunk fe endTime chunkEnd ps h).1
      (chunkArrivals fe endTime chunkEnd ps h).1.1 := by
  obtain ⟨hso, hm, hl, hc⟩ := chunkArrivals_spec fe (h := h) hs hlt
  generalize hp : (chunkArrivals fe endTime chunkEnd ps h).1.1 = part at *
  have hall : (ps.upcoming ++ part).Pairwise (· ≤ ·) :=
    pairwise_append.2 ⟨hs.sorted, hso, fun a ha b hb =>
      (hs.covered a ha).le.trans (hm b hb).1⟩
  have hd : (ps.uniformTimes ++ part).drop ps.uniformCursor = ps.upcoming ++ part :=
    drop_append_of_le_length hs.cursor_le
  have hta : ((ps.uniformTimes ++ part).take ps.uniformCursor).length = ps.uniformCursor := by
    rw [length_take, length_append]
    have := hs.cursor_le
    omega
  have hup : (sampleChunk fe endTime chunkEnd ps h).1.upcoming = ps.upcoming ++ part := by
    simp only [sampleChunk, PatternState.upcoming, hp]
    rw [drop_left' hta, hd, hall.insertionSort_eq]
    rfl
  refine ⟨rfl, rfl, ⟨?_, hup ▸ hall, ?_, ?_, hl⟩, hup, ?_, hlt.le, fun t ht => (hm t ht).1, hc⟩
  · simp only [sampleChunk, hp, length_append]
    omega
  · rw [hup]
    intro t ht
    rcases mem_append.1 ht with ht | ht
    · exact (hs.covered t ht).trans hlt
    · exact (hm t ht).2
  · rw [hup]
    intro t ht
    rcases mem_append.1 ht with ht | ht
    · exact hs.inRun t ht
    · exact (hm t ht).2.trans_le hle
  · simp only [sampleChunk, hp]

theorem extends_ensureLoop (fe : Feed) (coverThrough : Time) (n : Nat) (hs : ps.Sound endTime) :
    ∃ new, Extends endTime ps (ensureLoop fe endTime coverThrough n ps h).1 new := by
  induction n generalizing ps h with
  | zero => exact ⟨[], .refl hs⟩
  | succ n ih =>
    rw [ensureLoop]
    simp only
    generalize hc : (if ps.uniformStreamWatermark + eventGenerationLookaheadWindow > endTime
      then endTime else ps.uniformStreamWatermark + eventGenerationLookaheadWindow) = chunkEnd
    have hle : chunkEnd ≤ endTime := by
      rw [← hc]
      split_ifs with hgt
      · exact le_rfl
      · exact not_lt.1 hgt
    split
    · split_ifs with hlt
      · have hf := extends_sampleChunk fe (h := h) hs hlt hle
        obtain ⟨new, hr⟩ := ih hf.sound
        exact ⟨_, hf.trans hr⟩
      · exact ⟨[], .refl hs⟩
    · exact ⟨[], .refl hs⟩

theorem extends_compactUniformSchedule (hs : ps.Sound endTime) :
    Extends endTime ps (compactUniformSchedule ps) [] := by
  unfold compactUniformSchedule
  split
  · exact .refl hs
  -- dropping the consumed part leaves the arrivals that are still to come
  have hd : ∀ {times : List Time}, times = ps.upcoming →
      Extends endTime ps { ps with uniformTimes := times, uniformCursor := 0 } [] := by
    rintro _ rfl
    exact ⟨rfl, rfl, { hs with cursor_le := Nat.zero_le _ },
      (append_nil _).symm, (append_nil _).symm, le_rfl, by simp, by simp⟩
  split_ifs with hl
  · exact hd (drop_eq_nil_of_le hl).symm
  · exact hd rfl

/-- Extending a schedule only appends to it. -/
theorem extends_ensureUniformHorizon (fe : Feed) (hs : ps.Sound endTime) (coverThrough : Time)
    (h : History) :
    ∃ new, Extends endTime ps (ensureUniformHorizon fe endTime ps coverThrough h).1 new := by
  unfold ensureUniformHorizon
  split
  · exact ⟨[], .refl hs⟩
  · simp only
    obtain ⟨new, hl⟩ := extends_ensureLoop fe (h := h)
      (if coverThrough > endTime then endTime else coverThrough)
      (((if coverThrough > endTime then endTime else coverThrough) - ps.uniformStreamWatermark) /
        eventGenerationLookaheadWindow).toNat.succ hs
    exact ⟨new ++ [], hl.trans (extends_compactUniformSchedule hl.sound)⟩

/-! ### Covering a time -/

theorem ediv_window_lt {d : Int} {n : Nat}
    (hn : d / eventGenerationLookaheadWindow < (n + 1 : Nat)) :
    (d - eventGenerationLookaheadWindow) / eventGenerationLookaheadWindow < n := by
  simp only [eventGenerationLookaheadWindow, second] at hn ⊢
  omega

/-- The bound on the number of chunks suffices. -/
theorem covered_ensureLoop {coverThrough : Time} (hs : ps.Sound endTime)
    (hle : coverThrough ≤ endTime) (n : Nat)
    (hn : (coverThrough - ps.uniformStreamWatermark) / eventGenerationLookaheadWindow < n) :
    coverThrough ≤ (ensureLoop fe endTime coverThrough n ps h).1.uniformStreamWatermark := by
  have hw : (0 : Int) < eventGenerationLookaheadWindow := by decide
  induction n generalizing ps h with
  | zero =>
    by_contra hlt
    have hp : 0 ≤ coverThrough - ps.uniformStreamWatermark := by
      simp only [ensureLoop] at hlt
      linarith
    exact absurd (Int.ediv_nonneg hp hw.le) (not_le.2 hn)
  | succ n ih =>
    rw [ensureLoop]
    simp only
    split
    · rename_i hm
      generalize hc : (if ps.uniformStreamWatermark + eventGenerationLookaheadWindow > endTime
        then endTime else ps.uniformStreamWatermark + eventGenerationLookaheadWindow) = chunkEnd
      have hc' : ps.uniformStreamWatermark < chunkEnd ∧ chunkEnd ≤ endTime ∧ (chunkEnd = endTime ∨
            chunkEnd = ps.uniformStreamWatermark + eventGenerationLookaheadWindow) := by
        rw [← hc]
        split_ifs with hgt
        · exact ⟨hm.2, le_rfl, .inl rfl⟩
        · exact ⟨lt_add_of_pos_right _ hw, not_lt.1 hgt, .inr rfl⟩
      obtain ⟨hlt, he, hca⟩ := hc'
      rw [if_pos hlt]
      have hf := extends_sampleChunk fe (h := h) hs hlt he
      by_cases hd : coverThrough ≤ chunkEnd
      · obtain ⟨_, hr⟩ := extends_ensureLoop fe coverThrough
          (h := (sampleChunk fe endTime chunkEnd ps h).2) n hf.sound
        exact hd.trans hr.watermark
      · refine ih hf.sound ?_
        have hne : chunkEnd = ps.uniformStreamWatermark + eventGenerationLookaheadWindow :=
          hca.resolve_left fun heq => hd (heq ▸ hle)
        show (coverThrough - chunkEnd) / eventGenerationLookaheadWindow < n
        rw [hne, ← sub_sub]
        exact ediv_window_lt hn
    · rename_i hm
      rcases not_and_or.1 hm with hge | hge
      · exact not_lt.1 hge
      · exact hle.trans (not_lt.1 hge)

/-- After its extension a schedule covers the time asked for, or the whole run. -/
theorem covered_ensureUniformHorizon (fe : Feed) (hs : ps.Sound endTime)
    (hl : ps.uniformLazy = true) (coverThrough : Time) (h : History) : min coverThrough endTime ≤
      (ensureUniformHorizon fe endTime ps coverThrough h).1.uniformStreamWatermark := by
  have hm : (if coverThrough > endTime then endTime else coverThrough) =
      min coverThrough endTime := by
    rcases le_total coverThrough endTime with hle | hle
    · rw [min_eq_left hle, if_neg (not_lt.2 hle)]
    · rw [min_eq_right hle]
      split_ifs with hgt
      · rfl
      · exact le_antisymm (not_lt.1 hgt) hle
  unfold ensureUniformHorizon
  rw [hl, hm]
  obtain ⟨_, hlo⟩ := extends_ensureLoop fe (h := h) (min coverThrough endTime)
    (((min coverThrough endTime - ps.uniformStreamWatermark) /
      eventGenerationLookaheadWindow).toNat + 1) hs
  refine le_trans (covered_ensureLoop hs (min_le_right _ _) _ ?_)
    (extends_compactUniformSchedule hlo.sound).watermark
  exact Int.lt_add_one_of_le (Int.self_le_toNat _)

/-! ### Walking through a schedule -/

/-- The first arrival in the schedule is consumed. -/
def PatternState.consume (ps : PatternState) : PatternState :=
  { ps with uniformCursor := ps.uniformCursor + 1 }

theorem PatternState.upcoming_consume (ps : PatternState) :
    ps.consume.upcoming = ps.upcoming.tail := by
  simp [PatternState.upcoming, PatternState.consume]

theorem PatternState.cursor_lt (hne : ps.upcoming ≠ []) :
    ps.uniformCursor < ps.uniformTimes.length := by
  by_contra hge
  exact hne (drop_eq_nil_of_le (not_lt.1 hge))

theorem PatternState.Sound.consume (hs : ps.Sound endTime) (hne : ps.upcoming ≠ []) :
    ps.consume.Sound endTime := by
  have hup := ps.upcoming_consume
  refine ⟨PatternState.cursor_lt hne, ?_, ?_, ?_, hs.remaining_nonneg⟩
  · rw [hup]
    exact hs.sorted.sublist (tail_sublist _)
  · rw [hup]
    exact fun t ht => hs.covered t (mem_of_mem_tail ht)
  · rw [hup]
    exact fun t ht => hs.inRun t (mem_of_mem_tail ht)

/-- A schedule has been walked by one arrival, to `next`. -/
structure Advanced (endTime : Time) (ps : PatternState) (next : Time) (ps' : PatternState)
    (new : List Time) : Prop where
  frame : ps'.frame = ps.frame
  sound : ps'.Sound endTime
  upcoming : ps'.upcoming = ps.upcoming.tail ++ new
  sampled : ps'.sampled = ps.sampled ++ new
  watermark : ps.uniformStreamWatermark ≤ ps'.uniformStreamWatermark
  late : ∀ t ∈ new, ps.uniformStreamWatermark ≤ t
  counted : ps.uniformGlobalCountMode = true →
    ps'.uniformRemaining + new.length = ps.uniformRemaining
  next : ps'.upcoming.head? = some next ∧ ps'.stalled = ps.stalled ∨
    ps'.upcoming = [] ∧ next = endTime ∧
      ps'.stalled = (ps.stalled || decide (ps'.uniformRemaining > 0))

section Walk

variable {ps₁ ps₂ : PatternState} {next : Time}

/-- A schedule is extended, walked by one arrival and extended again. -/
theorem Advanced.of_extends {stalled : Bool} (hne : ps.upcoming ≠ [])
    (h₁ : Extends endTime ps ps₁ new) (h₂ : Extends endTime ps₁.consume ps₂ new')
    (hn : ps₂.upcoming.head? = some next ∧ stalled = ps.stalled ∨ ps₂.upcoming = [] ∧
      next = endTime ∧ stalled = (ps.stalled || decide (ps₂.uniformRemaining > 0))) :
    Advanced endTime ps next { ps₂ with stalled := stalled } (new ++ new') where
  frame := h₂.frame.trans h₁.frame
  sound := { h₂.sound with }
  upcoming := by
    show ps₂.upcoming = _
    rw [h₂.upcoming, PatternState.upcoming_consume, h₁.upcoming, tail_append_of_ne_nil hne,
      append_assoc]
  sampled := by
    show ps₂.sampled = _
    rw [h₂.sampled, ← append_assoc, ← h₁.sampled]
    rfl
  watermark := h₁.watermark.trans h₂.watermark
  late t ht := by
    rcases mem_append.1 ht with ht | ht
    · exact h₁.late t ht
    · exact h₁.watermark.trans (h₂.late t ht)
  counted hmode := by
    have hm₁ : ps₁.uniformGlobalCountMode = true :=
      (congrArg PatternState.uniformGlobalCountMode h₁.frame).trans hmode
    have hf := h₁.counted hmode
    have hs : ps₂.uniformRemaining + new'.length = ps₁.uniformRemaining := h₂.counted hm₁
    show ps₂.uniformRemaining + _ = _
    rw [length_append]
    omega
  next := hn

theorem Advanced.of_head (hne : ps.upcoming ≠ []) (h₁ : Extends endTime ps ps₁ new)
    (h₂ : Extends endTime ps₁.consume ps₂ new') (hn : ps₂.upcoming.head? = some next) :
    Advanced endTime ps next ps₂ (new ++ new') :=
  .of_extends hne h₁ h₂ (.inl ⟨hn, h₂.stalled.trans h₁.stalled⟩)

theorem Advanced.of_nil (hne : ps.upcoming ≠ []) (h₁ : Extends endTime ps ps₁ new)
    (h₂ : Extends endTime ps₁.consume ps₂ new') (hn : ps₂.upcoming = []) :
    Advanced endTime ps endTime ps₂.exhausted (new ++ new') :=
  .of_extends hne h₁ h₂ (.inr ⟨hn, rfl, by rw [← h₁.stalled]; exact congrArg (· || _) h₂.stalled⟩)

end Walk

theorem PatternState.getElem?_cursor (ps : PatternState) :
    ps.uniformTimes[ps.uniformCursor]? = ps.upcoming.head? := by
  rw [PatternState.upcoming, head?_drop]

/-- A uniform pattern walks through its schedule, and extends it before it gives it up. -/
theorem advanceToNextArrival_uniform (fe : Feed) (hs : ps.Sound endTime)
    (hu : ps.uniform = true) (hne : ps.upcoming ≠ []) (scheduledAt : Time) (h : History) :
    ∃ next ps' h' new, advanceToNextArrival fe endTime ps scheduledAt h = .ok ((next, ps'), h') ∧
      Advanced endTime ps next ps' new := by
  obtain ⟨new, hf⟩ := extends_ensureUniformHorizon fe hs
    (scheduledAt + eventGenerationLookaheadWindow) h
  unfold advanceToNextArrival
  rw [hu]
  simp only [Bool.not_true, Bool.false_eq_true, if_false]
  generalize ensureUniformHorizon fe endTime ps (scheduledAt + eventGenerationLookaheadWindow) h = r
    at hf
  obtain ⟨ps₁, h₁⟩ := r
  have hne₁ : ps₁.upcoming ≠ [] := by
    rw [hf.upcoming]
    exact append_ne_nil_of_left_ne_nil hne new
  have hn : ps₁.uniformTimes.isEmpty = false := by
    rw [isEmpty_eq_false_iff]
    exact ne_nil_of_length_pos (Nat.zero_lt_of_lt (PatternState.cursor_lt hne₁))
  rw [hn]
  simp only [Bool.false_eq_true, if_false]
  have hc := extends_compactUniformSchedule (hf.sound.consume hne₁)
  rw [show ({ ps₁ with uniformCursor := ps₁.uniformCursor + 1 } : PatternState) = ps₁.consume
    from rfl]
  generalize compactUniformSchedule ps₁.consume = ps₂ at hc
  simp only [PatternState.getElem?_cursor]
  cases hh : ps₂.upcoming.head? with
  | some next => exact ⟨next, ps₂, h₁, _, rfl, .of_head hne hf hc hh⟩
  | none =>
    have hn₂ := head?_eq_none_iff.1 hh
    dsimp only
    split
    · obtain ⟨new', hm⟩ := extends_ensureUniformHorizon fe hc.sound
        (ps₂.uniformStreamWatermark + eventGenerationLookaheadWindow) h₁
      generalize ensureUniformHorizon fe endTime ps₂
        (ps₂.uniformStreamWatermark + eventGenerationLookaheadWindow) h₁ = r at hm
      obtain ⟨ps₃, h₃⟩ := r
      cases hh' : ps₃.upcoming.head? with
      | some next => exact ⟨next, ps₃, h₃, _, rfl, .of_head hne hf (hc.trans hm) hh'⟩
      | none =>
        exact ⟨endTime, _, h₃, _, rfl, .of_nil hne hf (hc.trans hm) (head?_eq_none_iff.1 hh')⟩
    · exact ⟨endTime, _, h₁, _, rfl, .of_nil hne hf hc hn₂⟩

end Schedule

end SimCore.Workload
