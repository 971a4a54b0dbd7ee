import SimCore.Workload.Regular

/-!
# Invariants of runs with a generator

To show that every run of a generator keeps a property, it is enough to show that the first state
has it, and that a generation, an update, a stop and what the rest of the run does to the event
queue keep it.

## Main definitions

* `Simulation.Finished`: no generation comes any more
* `Quiet`: what a step without a generation does to the run
* `Kept`: the conditions on an invariant

## Main results

* `RunBy.kept`: the invariant holds in every state that a run reaches
-/

namespace SimCore.Workload

open Config Simd Protocol

variable {fe : Feed} {env : Env} {fuel : Nat} {s s' : Simulation} {state state' : State}

/-- No generation comes any more: the generator has been stopped, or its horizon is the end of a run
in standard mode. -/
def Simulation.Finished (s : Simulation) : Prop :=
  s.ws.stopped = true ∨ s.ws.realTimeMode = false ∧ s.ws.covered = s.ws.endTime

/-- A step without a generation brings no arrival and does not clear a guardrail error. -/
structure Quiet (state state' : State) : Prop where
  arrivals : ∀ t d, (t, EventKind.requestArrival d) ∈ state'.eng.pending →
    (t, EventKind.requestArrival d) ∈ state.eng.pending
  guardErr : state'.eng.guardErr = none → state.eng.guardErr = none

theorem mem_feedOf_arrival {es : List (Time × EventKind)} {t : Time} {d : ArrivalData} :
    (t, EventKind.requestArrival d) ∈ feedOf es ↔ (t, EventKind.requestArrival d) ∈ es := by
  simp [feedOf, feeds]

theorem quiet_stepEvent (hr : Reachable env state) (h : stepEvent env state = some state') :
    Quiet state state' := by
  refine ⟨fun t d hm => ?_, fun _ => guardErr_of_stepEvent h⟩
  rcases takes_stepEvent hr h with ⟨-, -, -, hp⟩ | ⟨t', k, -, ht⟩
  · exact hp ▸ hm
  · obtain ⟨newer, older, hp, hf⟩ := ht.feed
    have hold : (t, EventKind.requestArrival d) ∈ newer ++ older := by
      rw [← mem_feedOf_arrival, feedOf_append, ← hf]
      exact mem_feedOf_arrival.2 hm
    rw [hp]
    exact ((List.sublist_cons_self _ _).append_left newer).subset hold

theorem Outside.quiet (hr : Reachable env state) (h : Outside env state state') :
    Quiet state state' := by
  obtain ⟨-, -, hf, hg⟩ := h.course hr
  refine ⟨fun t d hm => ?_, hg⟩
  rw [← mem_feedOf_arrival, ← hf]
  exact mem_feedOf_arrival.2 hm

theorem ws_scheduleGeneration {horizon : Time} : (scheduleGeneration horizon s).ws = s.ws := by
  unfold scheduleGeneration
  split <;> rfl

theorem mem_of_scheduleGeneration {horizon t : Time} {d : ArrivalData}
    (hm : (t, EventKind.requestArrival d) ∈ (scheduleGeneration horizon s).state.eng.pending) :
    (t, EventKind.requestArrival d) ∈ s.state.eng.pending := by
  unfold scheduleGeneration at hm
  split at hm
  · have hp := pending_scheduleOutside s.state horizon .workloadGenerate
    rw [show ({ s with state := scheduleOutside s.state horizon .workloadGenerate } :
      Simulation).state.eng.pending = _ from hp] at hm
    exact (List.mem_cons.1 hm).resolve_left (by simp)
  · exact hm

def Action.updates : Action → Option String
  | .updateRate key _ => some key
  | .updatePattern key _ => some key
  | _ => none

/-- The conditions on a property of runs whose actions meet `ok`. -/
structure Kept (fe : Feed) (env : Env) (ok : Simulation → Action → Prop) (P : Simulation → Prop) :
    Prop where
  initial : ∀ {state : State} {patterns : KeyMap String PatternState} {drawn : History}
    {endTime : Time} {realTime : Bool}, Prepared env state → state.now ≤ endTime →
    initPatterns fe state.now endTime realTime env.scenario.normalizedWorkload .empty [] =
      .ok (patterns, drawn) → P (.initial state patterns drawn endTime realTime)
  generate : ∀ {s s' : Simulation} {fuel : Nat}, s.AllFit → ¬ s.Finished →
    (s.ws.realTimeMode = false → s.state.now = s.ws.covered) → P s →
    generate fe (!s.ws.realTimeMode) fuel s.nextLimit s = .ok s' → P s'
  horizon : ∀ {s : Simulation} (t t' : Time), P s → P (scheduleGeneration t (s.setHorizon t'))
  quiet : ∀ {s : Simulation} {state : State}, Quiet s.state state → P s →
    P { s with state := state }
  update : ∀ {s s' : Simulation} {a : Action} {key : String}, ok s a → a.updates = some key →
    Step fe env s a s' → Revises s key s' → P s → P s'
  stop : ∀ {s : Simulation}, P s → P { s with ws := { s.ws with stopped := true } }

section Kept

variable {ok : Simulation → Action → Prop} {P : Simulation → Prop}

theorem Kept.start (hP : Kept fe env ok P) (hp : Prepared env state) {endTime : Time}
    {realTime : Bool} (hd : state.now ≤ endTime)
    (hok : start fe fuel env.scenario.normalizedWorkload endTime realTime state = .ok s) : P s := by
  obtain ⟨patterns, drawn, hi, hc⟩ := start_cases hd hok
  have hf := hP.initial hp hd hi
  have hfit : (Simulation.initial state patterns drawn endTime realTime).AllFit :=
    fun key ps hps => by
      obtain ⟨_, -, -, hr⟩ := forall_initPatterns hi key ps hps
      exact hr.fit
  rcases hc with ⟨rfl, hg⟩ | ⟨rfl, s₁, hg, rfl⟩
  · exact hP.generate hfit (by simp [Simulation.Finished, Simulation.initial]) (fun _ => rfl) hf hg
  · refine hP.horizon _ _ ?_
    rcases hg with ⟨hlt, hg⟩ | ⟨-, rfl⟩
    · exact hP.generate hfit (by simp [Simulation.Finished, Simulation.initial, hlt.ne])
        (fun _ => rfl) hf hg
    · exact hf

theorem Kept.step (hP : Kept fe env ok P) (hr : Reachable env s.state) (hs : s.Regular)
    (hp : P s) {a : Action} (hok : ok s a) (h : Step fe env s a s') : P s' := by
  have hstep := h
  cases h with
  | event h => exact hP.quiet (quiet_stepEvent hr h) hp
  | @generate _ state _ fuel h hk hg =>
    have hd := hs.takesDue hr h hk
    have hq := hP.quiet (quiet_stepEvent hr h) hp
    have hlt : state.now < s.ws.endTime := by
      rw [hd.now, hd.time]
      exact hd.lt
    rcases handleWorkloadGenerate_cases (s := { s with state := state }) hlt hg with
      ⟨-, rfl⟩ | ⟨hst, s₁, hgen, rfl⟩
    · exact hq
    · have hn : ¬ ({ s with state := state } : Simulation).Finished := by
        rintro (hstopped | ⟨-, he⟩)
        · cases hst.symm.trans hstopped
        · exact absurd he hd.lt.ne
      have hg' : Workload.generate fe (!s.ws.realTimeMode) fuel
          ({ s with state := state } : Simulation).nextLimit { s with state := state } =
            .ok s₁ := by
        rw [hd.mode]
        exact hgen
      exact hP.horizon _ _ (hP.generate (s := { s with state := state }) hs.fit hn
        (fun _ => hd.now.trans hd.time) hq hg')
  | tick _ hre hst hg =>
    rcases generateNextEvents_cases hg with ⟨-, rfl⟩ | ⟨-, hgen⟩
    · exact hp
    · have hn : ¬ s.Finished := by simp [Simulation.Finished, hre, hst]
      exact hP.generate hs.fit hn (fun hm => nomatch hm.symm.trans hre) hp
        (by rw [hre]; exact hgen)
  | updateRate _ _ h => exact hP.update hok rfl hstep (updateRate_spec hs.fit h) hp
  | updatePattern _ _ h => exact hP.update hok rfl hstep (updatePattern_spec hs.fit h) hp
  | stop => exact hP.stop hp
  | outside h => exact hP.quiet (h.quiet hr) hp

/-- The invariant holds in every state that a run reaches. -/
theorem RunBy.kept (hP : Kept fe env ok P) (h : RunBy fe env ok s) : P s := by
  induction h with
  | start hp _ _ _ hd h => exact hP.start hp hd h
  | step hs hok h ih => exact hP.step hs.reachable hs.regular ih hok h

end Kept

/-! ### Runs without updates -/

/-- No pattern is updated. -/
def Untouched (_ : Simulation) (a : Action) : Prop :=
  a.updates = none

/-- Without updates every pattern is done up to the last horizon, as long as no guardrail error is
latched. -/
theorem kept_doneTo : Kept fe env Untouched fun s =>
    s.state.eng.guardErr = none → ∀ key, s.DoneTo s.ws.covered key where
  initial _ _ hinit _ key ps hps := by
    obtain ⟨_, -, -, hr⟩ := forall_initPatterns hinit key ps hps
    exact ⟨hr.revised, hr.next⟩
  generate hfit _ _ _ hok hnone := by
    obtain ⟨-, -, hc, hd⟩ := generate_spec hfit hok
    rw [hc]
    exact (hd hnone).2
  horizon {s} t t' hs hnone := by
    intro key ps
    rw [ws_scheduleGeneration]
    exact hs (guardErr_scheduleGeneration (s := s.setHorizon t') hnone) key ps
  quiet hq hs hnone := hs (hq.guardErr hnone)
  update hok hkey _ _ _ := nomatch hok.symm.trans hkey
  stop hs := hs

end SimCore.Workload
