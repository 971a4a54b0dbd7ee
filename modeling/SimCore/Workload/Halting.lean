import SimCore.Workload.Regular
import Mathlib.Order.WellFounded

/-!
# Halting of the workload generator

Why the generator halts without a result, and that its loops come to an end. Every arrival but those
of a uniform pattern is later than the one before it, as long as no constant rate puts more than one
arrival into a nanosecond. A uniform pattern consumes its schedule, which can only be extended up to
the end of the run.

## Main definitions

* `HaltsBy`: a function of the generator halts for given reasons only
* `Settles`: a function that is given enough turns comes to a result
* `Ends`: why a function halts, and when it comes to a result

## Main results

* `ends_start`: the reasons for which the start halts, and when it comes to a result
-/

namespace SimCore.Workload

open Config Interaction Simd PatternState

variable {α β : Type} {P : Halt → Prop} {fe : Feed} {standard halted realTime : Bool} {key : String}
  {startTime endTime limit : Time} {fuel : Nat} {s s' : Simulation} {state : State} {b : Batch}
  {ps : PatternState} {rows : List WorkloadPattern} {R : WorkloadPattern → Prop}
  {t : Time} {h : History}

/-! ### Reasons to halt -/

/-- A function of the generator that halts for given reasons only. -/
def HaltsBy (P : Halt → Prop) (x : Except Halt α) : Prop :=
  ∀ halt, x = .error halt → P halt

theorem haltsBy_ok (a : α) : HaltsBy P (.ok a : Except Halt α) := by
  intro ha h
  cases h

theorem HaltsBy.of_error {x : Except Halt α} (hx : HaltsBy P x) {ha : Halt}
    (h : x = .error ha) : HaltsBy P (.error ha : Except Halt β) := by
  intro ha' hh
  cases hh
  exact hx ha h

/-- The message of a search for a bursty arrival that does not end. -/
def burstyLimit : String := "bursty: exceeded iteration limit; check burst/quiet durations"

theorem haltsBy_burstyLoop {src : RandSource} {b : Burst} {epoch : Time} {n : Nat} :
    HaltsBy (· = .crashed burstyLimit) (burstyLoop src b epoch n t h) := by
  induction n generalizing t h with
  | zero =>
    intro ha hh
    cases hh
    rfl
  | succ _ ih =>
    rw [burstyLoop]
    simp only
    generalize (if durationToSeconds (t - epoch) < 0 then epoch else t) = t
    split
    · split
      · exact haltsBy_ok _
      · exact ih
    · exact ih

/-- The arrival types other than `uniform` that are supported. -/
def supportedTypes : List String :=
  ["poisson", "exponential", "constant", "normal", "gaussian", "bursty"]

/-- Why the calculation of the next arrival halts: a search that does not end, or a type that is not
supported. -/
theorem haltsBy_calculateNextArrivalTime {src : RandSource} {a : ArrivalSpec} {epoch : Time} :
    HaltsBy (fun ha => ∃ message, ha = .crashed message ∧
        (a.type ∈ supportedTypes → a.type = "bursty" ∧ message = burstyLimit))
      (calculateNextArrivalTime src a t epoch h) := by
  unfold calculateNextArrivalTime
  split
  · exact haltsBy_ok _
  split
  · exact haltsBy_ok _
  split
  · exact haltsBy_ok _
  split_ifs with hb
  · unfold burstyNextArrivalTime
    simp only
    split
    · exact haltsBy_ok _
    · intro ha hh
      exact ⟨burstyLimit, haltsBy_burstyLoop ha hh, fun _ => ⟨hb, rfl⟩⟩
  · intro ha hh
    cases hh
    refine ⟨_, rfl, fun hm => ?_⟩
    simp only [supportedTypes, List.mem_cons, List.not_mem_nil, or_false] at hm
    tauto

/-- The next arrival of a row, if it is not uniform, is found or the search halts for a given
reason. -/
def ArrivalsHaltBy (fe : Feed) (P : Halt → Prop) (row : WorkloadPattern) : Prop :=
  row.arrival.type ≠ "uniform" →
    ∀ t epoch h, HaltsBy P (calculateNextArrivalTime fe.source row.arrival t epoch h)

theorem PatternState.type_ne_of_not_uniform (hu : ps.uniform = false) :
    ps.pattern.arrival.type ≠ "uniform" := by
  simpa [uniform] using hu

/-- A fit pattern with an arrival within the run has it in its schedule, if it is uniform. -/
theorem PatternState.Fit.upcoming_ne_nil (hf : b.ps.Fit endTime)
    (hm : b.ps.more endTime limit = true) (hu : b.ps.uniform = true) : b.ps.upcoming ≠ [] := by
  intro hn
  have hh := hf.head hu (PatternState.lt_of_more hm)
  rw [hn] at hh
  cases hh

theorem haltsBy_advanceToNextArrival (hf : ps.Fit endTime)
    (hh : ps.uniform = true → ps.upcoming ≠ []) (hr : ArrivalsHaltBy fe P ps.pattern) :
    HaltsBy P (advanceToNextArrival fe endTime ps t h) := by
  cases hu : ps.uniform with
  | true =>
    obtain ⟨_, _, _, _, ha, -⟩ := advanceToNextArrival_uniform fe (hf.sound hu) hu
      (hh hu) t h
    rw [ha]
    exact haltsBy_ok _
  | false =>
    rw [advanceToNextArrival, hu]
    simp only [Bool.not_false, if_true]
    split
    · exact haltsBy_ok _
    · rename_i hc
      exact HaltsBy.of_error (hr (type_ne_of_not_uniform hu) _ _ _) hc

theorem Emits.pattern {b' : Batch} (hf : b.ps.Fit endTime)
    (he : Emits fe standard key endTime limit b b') : b'.ps.pattern = b.ps.pattern :=
  congrArg Prod.fst (he.label hf).1

theorem haltsBy_generateLoop {n : Nat} (hun : P .unfinished) (hf : b.ps.Fit endTime)
    (hr : ArrivalsHaltBy fe P b.ps.pattern) :
    HaltsBy P (generateLoop fe standard key endTime limit n b) := by
  induction n generalizing b with
  | zero =>
    rw [generateLoop]
    split
    · intro halt hh
      cases hh
      exact hun
    · exact haltsBy_ok _
  | succ _ ih =>
    rw [generateLoop]
    split
    · rename_i hm
      split_ifs with hg
      · exact haltsBy_ok _
      · split
        · rename_i ha
          exact (haltsBy_advanceToNextArrival hf (hf.upcoming_ne_nil hm) hr).of_error ha
        · rename_i next ps drawn ha
          have he : Emits fe standard key endTime limit b ((b.schedule key).move next ps drawn) :=
            ⟨next, ps, drawn, hm, fun hs => by simpa [hs] using hg, ha, rfl⟩
          exact ih (he.fit hf).1 (he.pattern hf ▸ hr)
    · exact haltsBy_ok _

/-! ### The rows of the patterns -/

/-- Something holds of the rows of all patterns. -/
def Simulation.AllRows (R : WorkloadPattern → Prop) (s : Simulation) : Prop :=
  ∀ key ps, s.ws.patterns.get key = some ps → R ps.pattern

theorem allRows_generatePattern (hf : s.AllFit) (hr : s.AllRows R)
    (hok : generatePattern fe standard fuel limit key s = .ok (halted, s')) : s'.AllRows R := by
  intro key' ps' hps'
  have hm : key' ∈ s.ws.patterns.keys :=
    (generatePattern_spec hf hok).1.keys ▸ KeyMap.mem_keys_of_get hps'
  obtain ⟨ps, hps⟩ := Option.isSome_iff_exists.1 ((s.ws.patterns.mem_keys key').1 hm)
  have hp : ps'.pattern = ps.pattern :=
    congrArg Prod.fst (generatePattern_label hf hok key' ps ps' hps hps')
  exact hp ▸ hr key' ps hps

theorem haltsBy_initPattern {row : WorkloadPattern} {parts : String × String}
    (hrow : parseDownstreamTarget row.target = .ok parts) (hr : ArrivalsHaltBy fe P row) :
    HaltsBy P (initPattern fe startTime endTime realTime row h) := by
  unfold initPattern
  rw [hrow]
  simp only
  split_ifs with hu
  · exact haltsBy_ok _
  · split
    · rename_i hc
      exact HaltsBy.of_error
        (hr (type_ne_of_not_uniform (by simpa using hu)) _ _ _) hc
    · exact haltsBy_ok _

theorem haltsBy_initPatterns {m : KeyMap String PatternState}
    (hro : ∀ row ∈ rows, ∃ parts, parseDownstreamTarget row.target = .ok parts)
    (hr : ∀ row ∈ rows, ArrivalsHaltBy fe P row) :
    HaltsBy P (initPatterns fe startTime endTime realTime rows m h) := by
  induction rows generalizing m h with
  | nil => exact haltsBy_ok _
  | cons row _ ih =>
    obtain ⟨_, hp⟩ := hro row List.mem_cons_self
    rw [initPatterns]
    split
    · rename_i hi
      exact (haltsBy_initPattern hp (hr row List.mem_cons_self)).of_error hi
    · exact ih (fun row hrow => hro row (List.mem_cons_of_mem _ hrow))
        fun row hrow => hr row (List.mem_cons_of_mem _ hrow)

/-- Initialised patterns are fit, and what holds of the rows holds of theirs. -/
theorem initial_of_initPatterns {patterns : KeyMap String PatternState} {drawn : History}
    (hr : ∀ row ∈ rows, R row)
    (hi : initPatterns fe state.now endTime realTime rows .empty [] = .ok (patterns, drawn)) :
    (Simulation.initial state patterns drawn endTime realTime).AllFit ∧
      (Simulation.initial state patterns drawn endTime realTime).AllRows R := by
  constructor
  · intro key ps hps
    obtain ⟨row, -, -, hrow⟩ := forall_initPatterns hi key ps hps
    exact hrow.fit
  · intro key ps hps
    obtain ⟨row, hm, -, hrow⟩ := forall_initPatterns hi key ps hps
    exact hrow.pattern ▸ hr row hm

/-! ### Results of functions that are given enough turns -/

/-- A function that is given enough turns comes to a result. -/
def Settles (f : Nat → Except Halt α) : Prop :=
  ∃ result, result ≠ .error .unfinished ∧ ∃ enough, ∀ n, enough ≤ n → f n = result

theorem Settles.next {f : Nat → Except Halt α} {g : Nat → Except Halt β} (hf : Settles f)
    (he : ∀ n ha, f n = .error ha → g n = .error ha)
    (hok : ∀ n a, f n = .ok a → ∃ g', Settles g' ∧ ∀ m, f m = .ok a → g m = g' m) : Settles g := by
  obtain ⟨result, hr, enough, hf⟩ := hf
  cases result with
  | error ha =>
    refine ⟨.error ha, fun h => hr (by cases h; rfl), enough, fun n hn => ?_⟩
    exact he n ha (hf n hn)
  | ok a =>
    obtain ⟨_, ⟨result', hr', enough', hg⟩, hs⟩ := hok enough a (hf enough le_rfl)
    refine ⟨result', hr', max enough enough', fun n hn => ?_⟩
    rw [hs n (hf n ((le_max_left _ _).trans hn))]
    exact hg n ((le_max_right _ _).trans hn)

/-- A function that halts for given reasons only, and comes to a result if a condition holds. -/
structure Ends (P : Halt → Prop) (Q : Prop) (f : Nat → Except Halt α) : Prop where
  haltsBy : ∀ n, HaltsBy P (f n)
  settles : Q → Settles f

namespace Ends

variable {Q : Prop} {f : Nat → Except Halt α} {g : Nat → Except Halt β}

theorem ok (a : α) : Ends P Q fun _ => (.ok a : Except Halt α) :=
  ⟨fun _ => haltsBy_ok a, fun _ => ⟨.ok a, by simp, 0, fun _ _ => rfl⟩⟩

theorem next (hf : Ends P Q f) (he : ∀ n ha, f n = .error ha → g n = .error ha)
    (hok : ∀ n a, f n = .ok a → ∃ g', Ends P Q g' ∧ ∀ m, f m = .ok a → g m = g' m) :
    Ends P Q g where
  haltsBy n := by
    cases hn : f n with
    | error ha => exact he n ha hn ▸ (hf.haltsBy n).of_error hn
    | ok a =>
      obtain ⟨g', hg', hs⟩ := hok n a hn
      exact hs n hn ▸ hg'.haltsBy n
  settles hQ := (hf.settles hQ).next he fun n a hn => by
    obtain ⟨g', hg', hs⟩ := hok n a hn
    exact ⟨g', hg'.settles hQ, hs⟩

theorem map (hf : Ends P Q f) (he : ∀ n ha, f n = .error ha → g n = .error ha)
    (k : α → β) (hok : ∀ n a, f n = .ok a → g n = .ok (k a)) : Ends P Q g :=
  hf.next he fun _ a _ => ⟨fun _ => .ok (k a), .ok (k a), fun m => hok m a⟩

end Ends

/-- The arrivals of a row are at least a nanosecond apart, if the rate is constant. -/
def Paced (row : WorkloadPattern) : Prop :=
  row.arrival.type = "constant" → row.arrival.rateRPS ≤ second

/-- How much of the run, and then of its schedule, a pattern has still to go through. -/
def PatternState.ahead (endTime : Time) (ps : PatternState) : ℕ ×ₗ ℕ :=
  if ps.uniform then
    toLex ((endTime - ps.uniformStreamWatermark).toNat, ps.upcoming.length)
  else toLex ((endTime - ps.nextEventTime).toNat, 0)

/-- Walking through a schedule leaves less of it, or less of the run to extend it over. -/
theorem Advanced.ahead_lt {ps' : PatternState} {next : Time} {new : List Time}
    (hu : ps.uniform = true) (hne : ps.upcoming ≠ []) (ha : Advanced endTime ps next ps' new) :
    ps'.ahead endTime < ps.ahead endTime := by
  have hu' : ps'.uniform = true := (congrArg uniform ha.frame).trans hu
  rw [ahead, ahead, if_pos hu, if_pos hu', Prod.Lex.toLex_lt_toLex]
  have hm := ha.watermark
  cases new with
  | cons t new =>
    -- a new arrival lies between the watermarks, and within the run
    have hmem : t ∈ ps'.upcoming := by simp [ha.upcoming]
    have hlow := ha.late t List.mem_cons_self
    have hh := ha.sound.covered t hmem
    have hr := ha.sound.inRun t hmem
    left
    have hlt : ps.uniformStreamWatermark < ps'.uniformStreamWatermark := hlow.trans_lt hh
    have he : ps.uniformStreamWatermark < endTime := hlow.trans_lt hr
    exact (Int.toNat_lt_toNat (sub_pos.2 he)).2 (sub_lt_sub_left hlt _)
  | nil =>
    have hl : ps'.upcoming.length < ps.upcoming.length := by
      rw [ha.upcoming, List.append_nil, List.length_tail]
      have := List.length_pos_iff.2 hne
      omega
    rcases (Int.toNat_le_toNat (sub_le_sub_left hm endTime)).lt_or_eq with hlt | heq
    · exact .inl hlt
    · exact .inr ⟨heq, hl⟩

/-- A turn of the loop leaves less to go through. -/
theorem Emits.ahead_lt {b' : Batch} (hf : b.ps.Fit endTime) (hp : Paced b.ps.pattern)
    (he : Emits fe standard key endTime limit b b') :
    b'.ps.ahead endTime < b.ps.ahead endTime := by
  obtain ⟨next, ps, drawn, hm, -, hadv, rfl⟩ := he
  rcases hf.advance hm hadv with ⟨hu, rfl, hc⟩ | ⟨hu, _, ha⟩
  · have hu' : ((b.schedule key).move next b.ps drawn).ps.uniform = false := hu
    rw [ahead, ahead, if_neg (by simp [hu']), if_neg (by simp [hu]), Prod.Lex.toLex_lt_toLex]
    left
    refine (Int.toNat_lt_toNat (sub_pos.2 (PatternState.lt_of_more hm))).2 (sub_lt_sub_left ?_ _)
    exact lt_calculateNextArrivalTime hp hc
  · have hmo : ((b.schedule key).move next ps drawn).ps.ahead endTime = ps.ahead endTime := by
      have hu' : ps.uniform = true := (congrArg uniform ha.frame).trans hu
      have hu'' : ((b.schedule key).move next ps drawn).ps.uniform = true := hu'
      rw [ahead, ahead, if_pos hu', if_pos hu'']
      rfl
    rw [hmo]
    exact ha.ahead_lt hu (hf.upcoming_ne_nil hm hu)

theorem crashed_ne_unfinished (fe : Feed) (row : WorkloadPattern) :
    ArrivalsHaltBy fe (· ≠ .unfinished) row := by
  intro _ t epoch h ha hh
  obtain ⟨_, rfl, -⟩ := haltsBy_calculateNextArrivalTime ha hh
  exact Halt.noConfusion

/-- The loop over the arrivals of a pattern comes to an end. -/
theorem settles_generateLoop (fe : Feed) (standard : Bool) (key : String) (limit : Time)
    (hf : b.ps.Fit endTime) (hp : Paced b.ps.pattern) :
    Settles fun n => generateLoop fe standard key endTime limit n b := by
  induction hahead : b.ps.ahead endTime using WellFoundedLT.induction generalizing b with
  | ind _ ih =>
    by_cases hm : b.ps.more endTime limit = true
    · by_cases hg : (standard && (b.schedule key).state.eng.guardErr.isSome) = true
      · refine ⟨.ok (true, b.schedule key), by simp, 1, fun n hn => ?_⟩
        obtain ⟨n, rfl⟩ := Nat.exists_eq_add_one_of_ne_zero (by omega : n ≠ 0)
        beta_reduce
        rw [generateLoop, if_pos hm]
        simp only [if_pos hg]
      · cases ha : advanceToNextArrival fe endTime b.ps b.ps.nextEventTime b.drawn with
        | error halt =>
          refine ⟨.error halt, fun h => ?_, 1, fun n hn => ?_⟩
          · exact haltsBy_advanceToNextArrival hf (hf.upcoming_ne_nil hm)
              (crashed_ne_unfinished fe b.ps.pattern) halt ha (by cases h; rfl)
          · obtain ⟨n, rfl⟩ := Nat.exists_eq_add_one_of_ne_zero (by omega : n ≠ 0)
            beta_reduce
            rw [generateLoop, if_pos hm]
            simp only [if_neg hg, ha]
        | ok moved =>
          obtain ⟨⟨next, ps⟩, drawn⟩ := moved
          have he : Emits fe standard key endTime limit b ((b.schedule key).move next ps drawn) :=
            ⟨next, ps, drawn, hm, fun hs => by simpa [hs] using hg, ha, rfl⟩
          obtain ⟨result, hr, enough, hre⟩ := ih _ (hahead ▸ he.ahead_lt hf hp)
            (he.fit hf).1 (he.pattern hf ▸ hp) rfl
          refine ⟨result, hr, enough + 1, fun n hn => ?_⟩
          obtain ⟨n, rfl⟩ := Nat.exists_eq_add_one_of_ne_zero (by omega : n ≠ 0)
          beta_reduce
          rw [generateLoop, if_pos hm]
          simp only [if_neg hg, ha]
          exact hre n (by omega)
    · refine ⟨.ok (false, b), by simp, 0, fun n _ => ?_⟩
      cases n <;> exact if_neg hm

/-- What is known of a row: why its arrivals are not found, and whether they are apart. -/
abbrev Known (fe : Feed) (P : Halt → Prop) (Q : Prop) (row : WorkloadPattern) : Prop :=
  ArrivalsHaltBy fe P row ∧ (Q → Paced row)

section Ends

variable {Q : Prop} (hun : P .unfinished)
include hun

theorem ends_generatePattern (standard : Bool) (key : String) (limit : Time) (hfit : s.AllFit)
    (hr : s.AllRows (Known fe P Q)) :
    Ends P Q fun n => generatePattern fe standard n limit key s := by
  cases hps : s.ws.patterns.get key with
  | none =>
    simp only [generatePattern, hps]
    exact .ok _
  | some ps =>
    have hf := hfit key ps hps
    have hrow : Known fe P Q (s.batch fe limit ps).ps.pattern :=
      (congrArg (Known fe P Q ·.1) (s.label_batch fe limit hf).1).mpr (hr key ps hps)
    have hf' := (s.fit_batch fe limit hf).1
    simp only [generatePattern, hps, hf.active, Bool.not_true, Bool.false_eq_true, if_false]
    refine Ends.map ⟨fun n => haltsBy_generateLoop hun hf' hrow.1, fun hQ =>
      settles_generateLoop fe standard key limit hf' (hrow.2 hQ)⟩ (fun n ha hl => ?_)
      (fun moved => (moved.1, s.store key moved.2)) fun n moved hl => ?_
    · simp only [hl]
    · simp only [hl]

theorem ends_generateEach (standard : Bool) (limit : Time) (keys : List String)
    (hf : s.AllFit) (hr : s.AllRows (Known fe P Q)) :
    Ends P Q fun n => generateEach fe standard n limit keys s := by
  induction keys generalizing s with
  | nil =>
    exact .ok _
  | cons key _ ih =>
    simp only [generateEach]
    refine (ends_generatePattern hun standard key limit hf hr).next (fun n ha hp => ?_)
      fun n moved hp => ?_
    · simp only [hp]
    · obtain ⟨halted, s₁⟩ := moved
      cases halted with
      | true => exact ⟨fun _ => .ok s₁, .ok s₁, fun m hm => by simp only [hm, if_true]⟩
      | false =>
        refine ⟨_, ih (generatePattern_spec hf hp).2.1
          (allRows_generatePattern hf hr hp), fun m hm => ?_⟩
        simp only [hm, Bool.false_eq_true, if_false]

theorem ends_generate (standard : Bool) (limit : Time) (hf : s.AllFit)
    (hr : s.AllRows (Known fe P Q)) : Ends P Q fun n => generate fe standard n limit s := by
  simp only [generate]
  refine (ends_generateEach hun standard limit (fe.order s.ws.ranges s.ws.patterns.keys) hf
    hr).map (fun n ha he => ?_)
    (fun s' => { s' with ws := { s'.ws with ranges := s.ws.ranges + 1, covered := limit } })
    fun n s' he => ?_
  · simp only [he]
  · simp only [he]

/-- The start halts for the reasons for which the next arrival of a row is not found, or because it
is given too few turns. If the arrivals are apart, it comes to a result. -/
theorem ends_start (hro : ∀ row ∈ rows, ∃ parts, parseDownstreamTarget row.target = .ok parts)
    (hr : ∀ row ∈ rows, Known fe P Q row) :
    Ends P Q fun n => start fe n rows endTime realTime state := by
  simp only [start]
  cases hinit : initPatterns fe state.now endTime realTime rows .empty [] with
  | error ha =>
    have hne := haltsBy_initPatterns hro (fun row _ => crashed_ne_unfinished fe row) ha hinit
    refine ⟨fun _ => (haltsBy_initPatterns hro fun row hrow => (hr row hrow).1).of_error hinit,
      fun _ => ⟨.error ha, fun h => hne (Except.error.inj h), 0, fun _ _ => rfl⟩⟩
  | ok initialised =>
    obtain ⟨patterns, drawn⟩ := initialised
    obtain ⟨hf, hall⟩ := initial_of_initPatterns hr hinit
    cases realTime with
    | true =>
      simp only [if_true, generateNextEvents]
      split
      · exact .ok _
      · exact ends_generate hun _ _ hf hall
    | false =>
      simp only [Bool.false_eq_true, if_false]
      set horizon := capTime endTime (state.now + eventGenerationLookaheadWindow)
      have hg : Ends P Q fun n => generateUpToHorizon fe n horizon
          (Simulation.initial state patterns drawn endTime false) := by
        simp only [generateUpToHorizon]
        split
        · exact .ok _
        split
        · exact .ok _
        · exact ends_generate hun _ _ hf hall
      refine hg.map (fun n ha hgen => ?_)
        (fun s => scheduleGeneration horizon (s.setHorizon horizon)) fun n s hgen => ?_
      · simp only [hgen]
      · simp only [hgen]

end Ends

end SimCore.Workload
