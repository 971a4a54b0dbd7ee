import SimCore.Refinement.Complete

/-!
# Runs as sequences of turns

Every step of a run is a move followed by the actions of a handler, so the invariants of the
protocol hold in every reachable state of a run.

## Main results

* `via_handleEvent`: the handler of an event is a sequence of actions
* `Step.turns`: a step of a run is a sequence of turns
* `Reachable.reached`: the protocol state of a reachable state is reached
-/

namespace SimCore.Simd

open Protocol Resource Config State

variable {env : Env} {s s' : State} {f f' f₀ : Flow} {t : Time}

/-- Of the engine, the protocol depends on the clock, the pending events and the refused requests.
-/
theorem via_handleEvent {k : EventKind} (hv : Via env f₀ (s.flow (.event t k) [])) :
    Via env f₀ ((handleEvent env s k).flow .free []) := by
  cases k with
  | simulationEnd => exact hv.act (.discard t _ rfl rfl)
  | drainSweep => exact via_handleDrainSweep hv
  | workloadGenerate => exact hv.act (.discard t _ rfl rfl)
  | requestArrival => exact via_handleRequestArrival hv
  | requestStart => exact via_handleRequestStart hv
  | requestComplete => exact via_handleRequestComplete hv
  | downstreamCall => exact via_handleDownstreamCall hv
  | downstreamRetry => exact via_handleDownstreamRetry hv
  | downstreamTimeout => exact via_handleDownstreamTimeout hv
  | callerOverheadStart => exact via_handleDownstreamCallerOverheadStart hv
  | callerOverheadEnd => exact via_handleDownstreamCallerOverheadEnd hv
  | queueEnqueue => exact via_handleQueueEnqueue hv
  | queueDequeue => exact via_handleQueueDequeue hv
  | queueAckTimeout => exact via_handleQueueAckTimeout hv
  | queueDLQ => exact via_handleQueueDLQ hv
  | asyncParentFinalize => exact via_handleAsyncParentFinalize hv
  | topicPublish => exact via_handleTopicPublish hv
  | topicDequeue => exact via_handleTopicDequeue hv
  | topicAckTimeout => exact via_handleTopicAckTimeout hv
  | topicDLQ => exact via_handleTopicDLQ hv
  | topicRetentionExpire => exact via_handleTopicRetentionExpire hv

/-! ### Steps -/

theorem turns_of_acts (h : Acts env f f') : Turns env f f' :=
  Relation.ReflTransGen.mono (fun _ _ h => Or.inl h) _ _ h

/-- One turn of the event loop takes a first event off the queue and carries out the actions of its
handler, unless the limit on processed events stops it. -/
theorem acts_stepEvent (hf : Reached env (s.flow .free [])) (h : stepEvent env s = some s') :
    (s'.flow .free [] = s.flow .free [] ∧ s'.eng.guardErr.isSome = true ∧
        ∀ event eng, s.eng.next = some (event, eng) → eng.overProcessed = true) ∨
      ∃ event eng newer older, s.eng.next = some (event, eng) ∧ eng.overProcessed = false ∧
        s.eng.pending = newer ++ (event.time, event.kind) :: older ∧
        Move (s.flow .free []) ((s.flow .free []).pop event.time event.kind (newer ++ older)) ∧
        Acts env ((s.flow .free []).pop event.time event.kind (newer ++ older))
          (s'.flow .free []) := by
  unfold stepEvent at h
  split at h
  · cases h
  rename_i event eng hn
  obtain ⟨hg, -, ht, hr, newer, older, hp, hre, hne, hol⟩ :=
    Engine.next_eq_some hn
  split_ifs at h with ho
  · -- the event stays pending, and the clock does not move
    cases h
    refine .inl ⟨rfl, rfl, fun event' eng' hn' => ?_⟩
    rw [hn] at hn'
    cases hn'
    exact ho
  · cases h
    have hpop : Move (s.flow .free []) ((s.flow .free []).pop event.time event.kind
        (newer ++ older)) :=
      .pop event.time event.kind newer older rfl rfl (s.eng.refused_latches hg).2 hp hne
        hol
    have hfl : State.flow { s with eng := eng } (.event event.time event.kind) [] =
        (s.flow .free []).pop event.time event.kind (newer ++ older) := by
      simp only [State.flow, State.now, Flow.pop, ht, hr, hre]
    have hv : Via env (State.flow { s with eng := eng } (.event event.time event.kind) [])
        ((handleEvent env { s with eng := eng } event.kind).flow .free []) := by
      refine via_handleEvent (t := event.time) ⟨?_, .refl⟩
      rw [hfl]
      exact .turn hf (.inr hpop)
    exact .inr ⟨event, eng, newer, older, hn, by simpa using ho, hp, hpop, hfl ▸ hv.acts⟩

theorem turns_stepEvent (hf : Reached env (s.flow .free [])) (h : stepEvent env s = some s') :
    Turns env (s.flow .free []) (s'.flow .free []) := by
  rcases acts_stepEvent hf h with ⟨hs, -⟩ | ⟨_, _, _, _, -, -, -, hp, ha⟩
  · rw [hs]
    exact .refl
  · exact (turns_of_acts ha).head (.inr hp)

theorem turn_controllerSweep (hm : s.rm.ledger.Coherent) :
    Turns env (s.flow .free []) ((controllerSweep s).flow .free []) := by
  unfold controllerSweep
  split
  · exact .refl
  · rename_i t _
    simp only [Manager.dropped_processDrainingInstances hm.toPlaced, List.foldl_nil]
    exact .single (.inr (.sweep t _ rfl rfl (Manager.drained_processDrainingInstances hm t)))

/-- An instance that is told to drain while a start on it is pending is noted. -/
theorem mem_busyDrains (hm : s.rm.ledger.Coherent) {rm : Manager} {a a' : Account}
    (ha : a ∈ s.rm.ledger.accounts) (hac : a.lifecycle = .active) (ha' : a' ∈ rm.ledger.accounts)
    (hid : a'.id = a.id) (hd : a'.lifecycle = .draining) {t : Time} {r : ReqId}
    (hs : (t, EventKind.requestStart r a.id) ∈ s.eng.pending) : a.id ∈ busyDrains s rm := by
  obtain ⟨i', hi', rfl⟩ := List.mem_map.1 ha'
  obtain ⟨i, hi, rfl⟩ := List.mem_map.1 ha
  obtain ⟨event, he, heq⟩ := List.mem_map.1 hs
  refine List.mem_map.2 ⟨i', List.mem_filter.2 ⟨hi', ?_⟩, hid⟩
  have hid : i'.id = i.id := hid
  have hf : s.rm.instance? i'.id = some i := by
    rw [hid]
    exact Manager.instance?_eq_some hm.toPlaced hi
  have hk : event.kind = .requestStart r i.id := (Prod.mk.inj heq).2
  have hac : i.lifecycle = .active := hac
  have hd : i'.lifecycle = .draining := hd
  simp only [hf, hd, Option.any_some, hac, beq_self_eq_true, Bool.true_and, List.any_eq_true]
  exact ⟨event, he, by simp [hk, hid]⟩

theorem turn_scale (hm : s.rm.ledger.Coherent) (op : Scaling) :
    Turn env (s.flow .free []) ((scale s op).flow .free []) := by
  obtain ⟨hc, hr⟩ := Manager.coherent_scaling hm op
  refine .inr ?_
  have hmo : Move (s.flow .free []) ((s.flow .free []).rescale (op.run s.rm).2.ledger
      (busyDrains s (op.run s.rm).2)) := by
    refine .scale _ _ rfl rfl hc hr ?_
    rintro a ha hac ⟨_, ha', hid, hd⟩ ⟨t, r, hs⟩
    exact mem_busyDrains hm ha hac ha' hid hd hs
  exact hmo

theorem flow_scheduleOutside (s : State) (t : Time) (k : EventKind) :
    (scheduleOutside s t k).flow .free [] = (s.flow .free []).schedule t k := by
  show ({ (s.scheduleAt t k).flow .free [] with
    backdated := s.backdated || decide (t < s.now) } : Flow) = _
  rw [flow_scheduleAt]
  rfl

/-- A step of a run is a sequence of turns. -/
theorem turns_step (hf : Reached env (s.flow .free [])) (h : Step env s s') :
    Turns env (s.flow .free []) (s'.flow .free []) := by
  have hm : s.rm.ledger.Coherent := hf.coherent
  cases h with
  | event h => exact turns_stepEvent hf h
  | schedule t k hk =>
    rw [flow_scheduleOutside]
    exact .single (.inr (.schedule t k rfl rfl hk))
  | scale op => exact .single (turn_scale hm op)
  | sweep => exact turn_controllerSweep hm
  | abort => exact .refl

theorem Initial.flow (h : Initial env s) : (s.flow .free []).Initial env := by
  obtain ⟨_, m, hm, rfl⟩ := h.placed
  obtain ⟨hc, hu⟩ := Manager.coherent_initializeFromScenario
    (accepted_of_valid h.valid).hosts hm
  constructor <;> first
    | exact h.valid | rfl | exact fun _ => rfl | exact fun _ _ _ => rfl | exact hc | exact hu

/-- The protocol state of a reachable state of a run is reached. -/
theorem Reachable.reached (h : Reachable env s) : Reached env (s.flow .free []) := by
  induction h with
  | init h => exact .start h.flow
  | step _ h ih => exact ih.turns (turns_step ih h)

/-- An event of a kind is in the queue. -/
def State.Queued (s : State) (k : EventKind) : Prop :=
  ∃ event ∈ s.eng.queue, event.kind = k

/-- Between two events the queue holds what has been issued and not handled. -/
theorem queued_iff (hg : s.eng.guardErr = none) {k : EventKind} :
    s.Queued k ↔ (s.flow .free []).Pending k := by
  have hi := (s.eng.refused_latches hg).1
  simp [State.Queued, Flow.Pending, Flow.PendingAt, Engine.pending, hi, and_comm]

theorem Step.turns (hs : Reachable env s) (h : Step env s s') :
    Turns env (s.flow .free []) (s'.flow .free []) :=
  turns_step hs.reached h

end SimCore.Simd
