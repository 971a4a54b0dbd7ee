import SimCore.Engine.Iterations

/-!
# How a run of the engine ends

When `Run` returns, a deferred function completes the run if it is still running, whatever is
returned: a run that was cancelled or broke a limit counts as completed, with metrics, unless
somebody else has set its status. So what a caller expects of the status holds exactly if nothing
has kept `Run` from going on: at the head of its loop it never found an error latched or its context
done, it did not process too many events, and the wait for the end was not cancelled. The clock then
shows the end of the simulation.

## Main results

* `ends_well_iff`, `cancelled_completed`: when the status tells how `Run` ended, and when not
-/

namespace SimCore.EngineLoop

open Concurrent

variable {τ : Type} {cfg : Config τ} {c : Pool (machine cfg)}

/-- The status tells how `Run` ended: after an error the run is not completed and has no metrics,
and without one it is completed and its clock shows the end. -/
def EndsWell (err : Option RunError) (endTime : Time) (s : SharedEngine τ) : Prop :=
  (err ≠ none → s.status ≠ .completed ∧ s.metrics = false) ∧
    (err = none → s.status = .completed ∧ s.simTime = endTime)

/-- Nobody else sets the status, and every operation lets `Run` go on. -/
def Unhindered (cfg : Config τ) (s : SharedEngine τ) (i : Nat) (op : Op τ) (a : Answer) : Prop :=
  leavesAlone s i op = true ∧ goesOn cfg s a op = true

theorem hindered_run {op : Op τ} {s : SharedEngine τ} {i : Nat} (a : Answer)
    (hp : op.pre cfg False True i s) :
    (op.run cfg a s).2.hindered = (!goesOn cfg s a op || s.hindered) := by
  cases op with
  | guardrailErr head =>
    cases head with
    | false => simp [Op.run, goesOn]
    | true =>
      obtain ⟨_, hp⟩ := hp
      simp [Op.run, goesOn, hp]
  | startHandler | begin | enterIteration | «continue» =>
    cases hp : s.place <;> simp [Op.run, goesOn, hp]
  | next =>
    simp only [Op.run]
    split <;> simp [goesOn]
  | _ => simp [Op.run, goesOn]

section

variable (hc : RunsBy (Call.body cfg) (fun s i op _ => leavesAlone s i op = true) Fresh c)
include hc

theorem regular_of_leavesAlone : RunsBy (Call.body cfg) (Regular False True) Fresh c :=
  hc.mono fun _ _ _ _ h => ⟨False.elim, fun _ => h⟩

/-- The engine remembers whether all operations have let `Run` go on. -/
theorem hindered_eq_false_iff : (c.shared : SharedEngine τ).hindered = false ↔
    RunsBy (Call.body cfg) (Unhindered cfg) Fresh c := by
  constructor
  · induction hc with
    | init hs => exact fun _ => .init hs
    | start _ call ih => exact fun h => .start (ih h) call
    | step hc hk a hok ih =>
      intro h
      have hh := (hindered_run a (pre_runsBy (regular_of_leavesAlone hc) hk)).symm.trans h
      simp only [Bool.or_eq_false_iff, Bool.not_eq_false'] at hh
      exact .step (ih hh.2) hk a ⟨hok, hh.1⟩
  · intro hu
    clear hc
    induction hu with
    | init hs =>
      obtain ⟨_, rfl⟩ := hs
      rfl
    | start _ _ ih => exact ih
    | step hu hk a hok ih =>
      have hr := regular_of_leavesAlone (hu.mono fun _ _ _ _ h => h.1)
      exact (hindered_run a (pre_runsBy hr hk)).trans (by rw [ih, hok.2]; rfl)

/-- In every run of the engine for a time that is not negative, in which nobody else sets the status
and no late end of the simulation is scheduled after a cancellation: when `Run` returns, the status
tells how it ended exactly if every operation has let `Run` go on. -/
theorem ends_well_iff {i : Nat} {err : Option RunError} {next : Unit → Prog cfg Unit}
    (hreturn : c.threads[i]? = some (.call (M := machine cfg) (.leave err) next)) :
    ∃ frame checked, (c.shared : SharedEngine τ).place = .inside frame i checked ∧
      (EndsWell err frame.endTime (c.shared : SharedEngine τ) ↔
        RunsBy (Call.body cfg) (Unhindered cfg) Fresh c) := by
  obtain ⟨frame, checked, hp, -, hgo, ha⟩ := pre_runsBy (regular_of_leavesAlone hc) hreturn
  obtain ⟨hs, -, hcl⟩ := ha trivial
  refine ⟨frame, checked, hp, ?_⟩
  rw [← hindered_eq_false_iff hc, ← hgo]
  refine ⟨fun h => ?_, fun h => ⟨fun hne => absurd h hne, fun _ => ⟨hs, hcl h⟩⟩⟩
  by_contra hne
  exact (h.1 hne).1 hs

end

/-- A run without limits. -/
def unlimited : Config Unit where
  handlers := fun _ => true

/-- A run comes to its end. -/
def toTheEnd : List (Pool.Move (Call Unit) (machine unlimited)) :=
  [.start (.run 10)] ++ List.replicate 8 (.step 0 {}) ++
    [.start .iteration] ++ List.replicate 9 (.step 1 {})

/-- The run is about to return no error, and its status tells so. -/
theorem ends_well_iff_toTheEnd : ∃ (c : Pool (machine unlimited)) (frame : Frame) (checked : Bool),
      (c.shared : SharedEngine Unit).place = .inside frame 1 checked ∧
      EndsWell none frame.endTime (c.shared : SharedEngine Unit) := by
  have hp : Pool.passes (Call.body unlimited)
      (fun s i op a => leavesAlone s i op && goesOn unlimited s a op)
      ⟨({} : SharedEngine Unit), []⟩ toTheEnd = true := by decide +kernel
  have hc : RunsBy (Call.body unlimited) (Unhindered unlimited) Fresh
      (Pool.play (Call.body unlimited) ⟨({} : SharedEngine Unit), []⟩ toTheEnd) :=
    runsBy_play (.init ⟨0, rfl⟩) hp fun s i op a h => by simpa [Unhindered] using h
  obtain ⟨frame, checked, hp, he⟩ :=
    ends_well_iff (i := 1) (hc.mono fun _ _ _ _ h => h.1) rfl
  exact ⟨_, frame, checked, hp, he.2 hc⟩

/-- A run is stopped before its first iteration: `Run` returns an error, and the run is completed
with metrics. -/
theorem cancelled_completed : ∃ c : Pool (machine unlimited), Runs (Call.body unlimited) Fresh c ∧
      (c.shared : SharedEngine Unit).place = .returned (some simulationCancelled) ∧
      (c.shared : SharedEngine Unit).status = .completed ∧
      (c.shared : SharedEngine Unit).metrics = true := by
  have hc : Runs (Call.body unlimited) Fresh
      (Pool.play (Call.body unlimited) ⟨({} : SharedEngine Unit), []⟩
        ([.start (.run 10)] ++ List.replicate 8 (.step 0 {}) ++ [.start .stop, .step 1 {},
          .step 1 {}, .start .iteration] ++ List.replicate 7 (.step 2 {}))) :=
    runs_play (.init ⟨0, rfl⟩) _
  exact ⟨_, hc, by decide +kernel, by decide +kernel, by decide +kernel⟩

end SimCore.EngineLoop
