import SimCore.Workload.Invariant

/-!
# Runtime updates of workload patterns

An update replaces the specification of a pattern in the generator. Arrivals of the old one that are
already in the event queue stay there, and a pattern that is not uniform has the first arrival of
the new one at the time of the update itself.

Every arrival carries the pattern that scheduled it and the number of updates that the pattern had
seen then.

## Main definitions

* `InSpec`: an arrival belongs to the specification in force at its time
* `Clean`: an update finds no later arrival of its pattern queued, and brings none at its own time

## Main results

* `arrival_from_current_spec`: in a run with clean updates every arrival belongs to the
  specification in force at its time
* `old_arrival_after_update`: an arrival of the old specification is taken after the update
-/

namespace SimCore.Workload

open Config Simd Protocol List

variable {fe : Feed} {env : Env} {standard halted : Bool} {key : String} {endTime limit : Time}
  {fuel : Nat} {b b' : Batch} {s s' : Simulation} {state state' : State} {ps : PatternState}

/-! ### Specifications in force -/

/-- An arrival at time `t`, scheduled after `v` updates at the given times, is not after any of the
later updates and strictly after the last one before it. -/
def InSpec (revisions : List Time) (v : Nat) (t : Time) : Prop :=
  (∀ i u, revisions[i]? = some u → v ≤ i → t ≤ u) ∧
    ∀ i u, revisions[i]? = some u → i + 1 = v → u < t

/-- The condition on an update of a pattern that leads from `s` to `s'`: no arrival of the pattern
is queued for a later time, and the first arrival of the new specification is later, unless nothing
is generated any more. -/
def CleanUpdate (s : Simulation) (key : String) (s' : Simulation) : Prop :=
  (∀ t d v, (t, EventKind.requestArrival d) ∈ s.state.eng.pending → d.spec = some (key, v) →
    t ≤ s.state.now) ∧
  (s.Finished ∨ ∀ ps, s'.ws.patterns.get key = some ps → ps.nextEventTime < s.ws.endTime →
    s.state.now < ps.nextEventTime)

/-- An action that updates a pattern is clean. -/
def Clean (fe : Feed) (env : Env) (s : Simulation) (a : Action) : Prop :=
  ∀ key s', a.updates = some key → Step fe env s a s' → CleanUpdate s key s'

/-! ### Where arrivals come from -/

/-- Every pending arrival belongs to the specification in force at its time. -/
def Simulation.Sourced (s : Simulation) : Prop :=
  ∀ t d, (t, EventKind.requestArrival d) ∈ s.state.eng.pending → ∃ key v ps,
    d.spec = some (key, v) ∧ s.ws.patterns.get key = some ps ∧ v ≤ ps.revisions.length ∧
      InSpec ps.revisions v t

/-- The next arrival of every pattern is after its last update. -/
def Simulation.Ahead (s : Simulation) : Prop :=
  ∀ key ps u, s.ws.patterns.get key = some ps → ps.revisions.getLast? = some u →
    ps.nextEventTime < s.ws.endTime → u < ps.nextEventTime

theorem inSpec_of_last {revisions : List Time} {t : Time}
    (h : ∀ u, revisions.getLast? = some u → u < t) : InSpec revisions revisions.length t := by
  refine ⟨fun i u hi hle => ?_, fun i u hi heq => h u ?_⟩
  · rw [getElem?_eq_none hle] at hi
    cases hi
  · rw [getLast?_eq_getElem?, ← heq]
    exact hi

/-- The next arrival of a pattern belongs to the specification in force. -/
theorem inSpec_next (hm : b'.ps.more endTime limit = true) (hr : b'.ps.revisions = b.ps.revisions)
    (hn : ∀ u, b.ps.revisions.getLast? = some u → b'.ps.nextEventTime < endTime →
      u < b'.ps.nextEventTime) {t : Time} {d : ArrivalData}
    (hmem : (t, EventKind.requestArrival d) ∈ (b'.schedule key).state.eng.pending) :
    (t, EventKind.requestArrival d) ∈ b'.state.eng.pending ∨
      d.spec = some (key, b.ps.revisions.length) ∧
        InSpec b.ps.revisions b.ps.revisions.length t := by
  have hp := pending_scheduleOutside b'.state b'.ps.nextEventTime
    (.requestArrival (workloadArrivalEventData key b'.ps))
  rw [show (b'.schedule key).state.eng.pending = _ from hp] at hmem
  rcases mem_cons.1 hmem with heq | hold
  · simp only [Prod.mk.injEq, EventKind.requestArrival.injEq] at heq
    obtain ⟨rfl, rfl⟩ := heq
    refine .inr ⟨?_, inSpec_of_last fun u hu => hn u hu (PatternState.lt_of_more hm)⟩
    rw [workloadArrivalEventData, hr]
  · exact .inl hold

/-- The arrivals that the loop schedules for a pattern. -/
theorem Generated.sourced (hf : b.ps.Fit endTime)
    (ha : ∀ u, b.ps.revisions.getLast? = some u → b.ps.nextEventTime < endTime →
      u < b.ps.nextEventTime)
    (hg : Generated fe standard key endTime limit b halted b') :
    (∀ u, b.ps.revisions.getLast? = some u → b'.ps.nextEventTime < endTime →
        u < b'.ps.nextEventTime) ∧
      ∀ t d, (t, EventKind.requestArrival d) ∈ b'.state.eng.pending →
        (t, EventKind.requestArrival d) ∈ b.state.eng.pending ∨
          d.spec = some (key, b.ps.revisions.length) ∧
            InSpec b.ps.revisions b.ps.revisions.length t := by
  obtain ⟨_, ⟨hfit, hr, hn, hp⟩, hl⟩ := hg.induction
    (P := fun b' => b'.ps.Fit endTime ∧ b'.ps.revisions = b.ps.revisions ∧
      (∀ u, b.ps.revisions.getLast? = some u → b'.ps.nextEventTime < endTime →
        u < b'.ps.nextEventTime) ∧
      ∀ t d, (t, EventKind.requestArrival d) ∈ b'.state.eng.pending →
        (t, EventKind.requestArrival d) ∈ b.state.eng.pending ∨
          d.spec = some (key, b.ps.revisions.length) ∧
            InSpec b.ps.revisions b.ps.revisions.length t)
    ⟨hf, rfl, ha, fun _ _ h => .inl h⟩
    fun b₁ b₂ hb he => by
      obtain ⟨hfit, hr, hn, hp⟩ := hb
      obtain ⟨hf', hs⟩ := he.fit hfit
      have hr' := (he.label hfit).2
      obtain ⟨_, _, _, hm, -, -, rfl⟩ := he
      refine ⟨hf', hr'.trans hr, fun u hu _ => ?_, fun t d hmem => ?_⟩
      · exact (hn u hu (PatternState.lt_of_more hm)).trans_le hs
      · exact (inSpec_next hm hr hn hmem).elim (hp t d) .inr
  rcases hl with ⟨-, rfl, -⟩ | ⟨-, rfl, hm, -⟩
  · exact ⟨hn, hp⟩
  · exact ⟨hn, fun t d hmem => (inSpec_next hm hr hn hmem).elim (hp t d) .inr⟩

theorem generatePattern_sourced (hf : s.AllFit) (hs : s.Sourced) (ha : s.Ahead)
    (hok : generatePattern fe standard fuel limit key s = .ok (halted, s')) :
    s'.Sourced ∧ s'.Ahead := by
  rcases generatePattern_cases hok with ⟨-, rfl, -⟩ | ⟨ps, b, hps, hg, rfl⟩
  · exact ⟨hs, ha⟩
  obtain ⟨hf', hn⟩ := s.fit_batch fe limit (hf key ps hps)
  have hr : (s.batch fe limit ps).ps.revisions = ps.revisions :=
    (s.label_batch fe limit (hf key ps hps)).2
  have hr' : b.ps.revisions = (s.batch fe limit ps).ps.revisions := (hg.label hf').2
  obtain ⟨hah, hp⟩ := hg.sourced hf' (by
    rw [hr, hn]
    exact fun u => ha key ps u hps)
  rw [hr] at hr' hah hp
  rw [state_batch] at hp
  have hse : (s.store key b).ws.patterns.get key = some { b.ps with revised := none } :=
    KeyMap.get_set_self ..
  constructor
  · intro t d hm
    rcases hp t d hm with hold | ⟨hsp, hin⟩
    · obtain ⟨key', v, ps', hsp, hps', hle, hin⟩ := hs t d hold
      by_cases hk : key' = key
      · subst hk
        obtain rfl : ps = ps' := Option.some.inj (hps.symm.trans hps')
        exact ⟨key', v, _, hsp, hse, by rw [hr']; exact hle, by rw [hr']; exact hin⟩
      · exact ⟨key', v, ps', hsp, (KeyMap.get_set_of_ne hk).trans hps', hle, hin⟩
    · exact ⟨key, _, _, hsp, hse, by rw [hr'], by rw [hr']; exact hin⟩
  · intro key' ps' u hps'
    refine KeyMap.forall_get_set (P := fun _ (ps : PatternState) => ∀ u,
      ps.revisions.getLast? = some u → ps.nextEventTime < s.ws.endTime → u < ps.nextEventTime)
      (fun key ps hps u => ha key ps u hps) (fun u hu => ?_) key' ps' hps' u
    exact hah u (by rw [← hr']; exact hu)

theorem inSpec_append {revisions : List Time} {v : Nat} {t now : Time} (hv : v ≤ revisions.length)
    (hin : InSpec revisions v t) (ht : t ≤ now) : InSpec (revisions ++ [now]) v t := by
  refine ⟨fun i u hi hle => ?_, fun i u hi heq => ?_⟩
  · rcases Nat.lt_or_ge i revisions.length with hlt | hge
    · rw [getElem?_append_left hlt] at hi
      exact hin.1 i u hi hle
    · rw [getElem?_append_right hge] at hi
      obtain rfl : now = u := by
        have hm := mem_singleton.1 (mem_of_getElem? hi)
        exact hm.symm
      exact ht
  · rw [getElem?_append_left (by omega)] at hi
    exact hin.2 i u hi heq

/-- After a clean update every arrival still belongs to the specification in force at its time. -/
theorem sourced_revises (hs : s.Sourced) (ha : s.Finished ∨ s.Ahead) (h : Revises s key s')
    (hc : CleanUpdate s key s') : s'.Sourced ∧ (s'.Finished ∨ s'.Ahead) := by
  obtain ⟨ps, ps', drawn, hps, rfl, hr⟩ := h
  have hse : (s.revise key ps' drawn).ws.patterns.get key = some ps' := KeyMap.get_set_self ..
  constructor
  · intro t d hm
    obtain ⟨key', v, ps₁, hsp, hps₁, hle, hin⟩ := hs t d hm
    by_cases hk : key' = key
    · subst hk
      obtain rfl : ps = ps₁ := Option.some.inj (hps.symm.trans hps₁)
      refine ⟨key', v, ps', hsp, hse, ?_, ?_⟩
      · rw [hr.revisions, length_append]
        omega
      · rw [hr.revisions]
        exact inSpec_append hle hin (hc.1 t d v hm hsp)
    · exact ⟨key', v, ps₁, hsp, (KeyMap.get_set_of_ne hk).trans hps₁, hle, hin⟩
  · rcases hc.2 with hf | hn
    · exact .inl hf
    · refine ha.imp id fun ha key' ps₁ u hps₁ => ?_
      refine KeyMap.forall_get_set (P := fun _ (ps : PatternState) => ∀ u,
        ps.revisions.getLast? = some u → ps.nextEventTime < s.ws.endTime → u < ps.nextEventTime)
        (fun key ps hps u => ha key ps u hps) (fun u hu => ?_) key' ps₁ hps₁ u
      rw [hr.revisions, getLast?_append, getLast?_singleton, Option.some_or] at hu
      cases hu
      exact hn ps' hse

theorem Prepared.no_arrivals (h : Prepared env state) (t : Time) (d : ArrivalData) :
    (t, EventKind.requestArrival d) ∉ state.eng.pending := by
  induction h with
  | init h =>
    obtain ⟨_, m, -, rfl⟩ := h.placed
    exact not_mem_nil
  | outside hs h ih => exact fun hm => ih ((h.quiet hs.reachable).arrivals t d hm)

theorem kept_sourced : Kept fe env (Clean fe env) fun s => s.Sourced ∧ (s.Finished ∨ s.Ahead) where
  initial hp _ hinit := by
    refine ⟨fun t d hm => absurd hm (hp.no_arrivals t d), .inr fun key ps u hps hu => ?_⟩
    obtain ⟨_, -, -, hr⟩ := forall_initPatterns hinit key ps hps
    rw [hr.revisions] at hu
    cases hu
  generate hfit hn _ hs hok := by
    obtain ⟨_, hs₁, -, rfl⟩ := generate_induction (P := fun s => s.Sourced ∧ s.Ahead) hfit
      ⟨hs.1, hs.2.resolve_left hn⟩ (fun hf₁ _ hs h => generatePattern_sourced hf₁ hs.1 hs.2 h)
      hok
    exact ⟨hs₁.1, .inr hs₁.2⟩
  horizon {s} t t' hs := by
    have hws : (scheduleGeneration t (s.setHorizon t')).ws = (s.setHorizon t').ws :=
      ws_scheduleGeneration
    refine ⟨fun t₁ d hm => ?_, ?_⟩
    · rw [hws]
      exact hs.1 t₁ d (mem_of_scheduleGeneration (s := s.setHorizon t') hm)
    · unfold Simulation.Finished Simulation.Ahead
      rw [hws]
      exact hs.2
  quiet hq hs := by
    refine ⟨fun t d hm => ?_, hs.2⟩
    exact hs.1 t d (hq.arrivals t d hm)
  update hok hkey hstep hrev hs := sourced_revises hs.1 hs.2 hrev (hok _ _ hkey hstep)
  stop hs := ⟨hs.1, .inl (.inl rfl)⟩

/-- In a run with clean updates every arrival that is taken from the queue belongs to the
specification in force at its time. -/
theorem arrival_from_current_spec (h : RunBy fe env (Clean fe env) s) {event : Event EventKind}
    {eng : Engine EventKind} {d : ArrivalData} (hnext : s.state.eng.next = some (event, eng))
    (hkind : event.kind = .requestArrival d) :
    ∃ key v ps, d.spec = some (key, v) ∧ s.ws.patterns.get key = some ps ∧
      InSpec ps.revisions v event.time := by
  obtain ⟨-, -, -, -, _, _, hp, -⟩ := Engine.next_eq_some hnext
  have hm : (event.time, EventKind.requestArrival d) ∈ s.state.eng.pending := by
    rw [hp, ← hkind]
    exact mem_append_right _ mem_cons_self
  obtain ⟨key, v, ps, hs, hps, -, hin⟩ := (h.kept kept_sourced).1 _ d hm
  exact ⟨key, v, ps, hs, hps, hin⟩

/-- A constant arrival rate in the given scenario. -/
def constantly (rate : ℚ) : Env :=
  .still (oneRow { type := "constant", rateRPS := rate })

def uniformRow : WorkloadPattern where
  source := "client"
  target := "api:/"
  arrival := { type := "uniform", rateRPS := 1 / 5 }

/-- No arrival is pending for a later time. -/
def arrivalsDone (s : Simulation) : Bool :=
  s.state.eng.pending.all fun e =>
    match e.2 with
    | .requestArrival _ => e.1 ≤ s.state.now
    | _ => true

/-- After five seconds arrivals at a constant rate are replaced by arrivals at uniform times; the
first of them is taken five seconds later. -/
theorem arrival_from_current_spec_uniform : ∃ s event eng d,
    RunBy .halves (constantly (1 / 5)) (Clean .halves (constantly (1 / 5))) s ∧
    s.state.eng.next = some (event, eng) ∧ event.kind = .requestArrival d ∧
    event.time = 10 * second ∧ ∃ key v ps, d.spec = some (key, v) ∧
      s.ws.patterns.get key = some ps ∧ InSpec ps.revisions v event.time := by
  -- the run up to the update, and what the update leads to
  obtain ⟨s₁, htr, ht⟩ := exists_of_trial
    (x := trial .halves (constantly (1 / 5)) 10 (15 * second) false [.event])
    (p := fun s => arrivalsDone s &&
      (updatePattern .halves "client:api:/" uniformRow s).toOption.any fun s' =>
        ((s'.ws.patterns.get "client:api:/").all fun ps => s.state.now < ps.nextEventTime) &&
        (performAll .halves (constantly (1 / 5)) 10 [.event, .event, .event] s').toOption.any
          fun s'' => s''.state.eng.next.any fun r =>
            r.1.time = 10 * second && r.1.kind matches .requestArrival _)
    (by decide +kernel)
  rw [Bool.and_eq_true] at ht
  obtain ⟨hd, hu⟩ := ht
  obtain ⟨s₂, hok, ht⟩ := exists_of_trial hu
  rw [Bool.and_eq_true] at ht
  obtain ⟨hl, hr⟩ := ht
  obtain ⟨s₃, hp, hn⟩ := exists_of_trial hr
  obtain ⟨⟨event, eng⟩, hn, hev⟩ := (Option.any_eq_true _ _).1 hn
  rw [Bool.and_eq_true] at hev
  obtain ⟨hti, hk⟩ := hev
  obtain ⟨d, hk⟩ : ∃ d, event.kind = .requestArrival d := by
    revert hk
    cases event.kind <;> simp
  -- other actions are clean
  have he : ∀ a ∈ ([.event, .event, .event] : List Action), ∀ s,
      Clean .halves (constantly (1 / 5)) s a := by
    intro a ha s key s' hkey
    have heq : a = .event := by simpa using ha
    rw [heq] at hkey
    cases hkey
  have hr₁ : RunBy .halves (constantly (1 / 5)) (Clean .halves (constantly (1 / 5))) s₁ :=
    runBy_trial (by decide +kernel) (fun a ha => he a (by simpa using ha)) (by decide) htr
  have hc : Clean .halves (constantly (1 / 5)) s₁ (.updatePattern "client:api:/" uniformRow) := by
    intro key s' hkey hs
    cases hkey
    cases hs with
    | updatePattern _ _ h =>
      obtain rfl : s₂ = s' := Except.ok.inj (hok.symm.trans h)
      refine ⟨fun t d _ hm _ => of_decide_eq_true (all_eq_true.1 hd _ hm), .inr fun ps hps _ => ?_⟩
      rw [hps] at hl
      exact of_decide_eq_true hl
  have hr₃ := runBy_performAll he (.step hr₁ hc (.updatePattern _ _ hok)) hp
  exact ⟨s₃, event, eng, d, hr₃, hn, hk, of_decide_eq_true hti, arrival_from_current_spec hr₃ hn hk⟩

/-- Arrivals every two seconds. After the first one the rate is updated, to the same value, and the
next arrival that is taken is one of the old specification, two seconds after the update. -/
theorem old_arrival_after_update : ∃ s event eng d key v ps,
    RunBy .still (constantly (1 / 2)) (fun _ _ => True) s ∧
    s.state.eng.next = some (event, eng) ∧ event.kind = .requestArrival d ∧
    d.spec = some (key, v) ∧ s.ws.patterns.get key = some ps ∧
    ¬ InSpec ps.revisions v event.time := by
  obtain ⟨s, ht, hte⟩ := exists_of_trial
    (x := trial .still (constantly (1 / 2)) 10 (30 * second) false
      [.event, .updateRate "client:api:/" (1 / 2), .event, .event])
    (p := fun s => s.state.eng.next.any fun r =>
      match r.1.kind with
      | .requestArrival d => decide (d.spec = some ("client:api:/", 0)) &&
        (s.ws.patterns.get "client:api:/").any fun ps =>
          ps.revisions = [2 * second] && r.1.time = 4 * second
      | _ => false) (by decide +kernel)
  obtain ⟨⟨event, eng⟩, hn, he⟩ := (Option.any_eq_true _ _).1 hte
  split at he
  · rename_i d hk
    rw [Bool.and_eq_true] at he
    obtain ⟨hs, hp⟩ := he
    obtain ⟨ps, hps, hp⟩ := (Option.any_eq_true _ _).1 hp
    rw [Bool.and_eq_true] at hp
    obtain ⟨hr, hti⟩ := hp
    refine ⟨s, event, eng, d, _, _, ps, runBy_trial (by decide +kernel) (fun _ _ _ => trivial)
      (by decide) ht, hn, hk, of_decide_eq_true hs, hps, fun hin => ?_⟩
    have hle := hin.1 0 (2 * second) (by rw [of_decide_eq_true hr]; rfl) le_rfl
    rw [of_decide_eq_true hti] at hle
    exact absurd hle (by decide)
  · cases he

end SimCore.Workload
