import SimCore.Base.KeyMap
import SimCore.Runs.RunInput
import Mathlib.Data.List.Sort

/-!
# The run store

The records of all runs of the server, by their ids. Every operation holds the lock of the store, so
that it is one atomic step. A run is created `PENDING`, a guarded start makes it `RUNNING`, and
`SetStatus` ends it; when it has ended, what it needed to run is dropped.

A record also remembers what the store does not: the statuses it has had, and the experiment that
created it as a candidate.

## Main definitions

* `RunStatus`, `RunRecord`, `RunStore`
* `RunStore.create`, `RunStore.setStatusRunningWithOnlineConcurrencyGuard`, `RunStore.setStatus`
* `RunStore.setOptimizationResult`, `RunStore.trimOptimizationCandidates`
* `RunStore.cleanupNow`: retention of runs that have ended

## Main results

* `RunStore.setStatusRunning_cases`, `RunStore.get_setStatus`: what a start and an end of a run
change
-/

namespace SimCore.Runs

/-- Ids of runs. -/
abbrev RunId := String

inductive RunStatus where
  | unspecified
  | pending
  | running
  | completed
  | failed
  | cancelled
  | stopped
deriving DecidableEq

/-- Whether a run has ended. -/
def isTerminalStatus : RunStatus → Bool
  | .completed | .failed | .cancelled | .stopped => true
  | _ => false

/-- Why an online run ends as completed. -/
inductive OnlineCompletion where
  | durationLimit
  | controllerSteps
  | converged
  | heartbeatExpired
deriving DecidableEq

/-- The record of a run. Of metrics, collector and final configuration only their presence is kept,
of the optimization history its length. The store never reads `history`, the statuses that the run
has had, the latest first, and `parent`, the experiment that the run is a candidate of. -/
structure RunRecord where
  id : RunId
  status : RunStatus := .pending
  error : String := ""
  createdAtUnixMs : Int := 0
  startedAtUnixMs : Int := 0
  endedAtUnixMs : Int := 0
  bestRunId : RunId := ""
  bestScore : ℚ := 0
  iterations : Int := 0
  candidateRunIds : List RunId := []
  onlineCompletionReason : Option OnlineCompletion := none
  input : Option RunInput := none
  metrics : Bool := false
  collector : Bool := false
  isOptimizationChild : Bool := false
  optimizationHistory : Nat := 0
  finalConfig : Bool := false
  history : List RunStatus := [.pending]
  parent : Option RunId := none
deriving DecidableEq

namespace RunRecord

/-- Whether the run has ended. -/
def terminal (rec : RunRecord) : Bool :=
  isTerminalStatus rec.status

/-- Whether the run is an online optimization that is running. -/
def runningOnline (rec : RunRecord) : Bool :=
  rec.status == .running && (rec.input.bind (·.optimization)).any (·.online)

/-- The record with another status. -/
def withStatus (rec : RunRecord) (status : RunStatus) : RunRecord :=
  { rec with status := status, history := status :: rec.history }

end RunRecord

/-- Retention of runs. Durations are in nanoseconds. -/
structure RunStoreLifecycleConfig where
  ttl : Int := 30 * 60 * second
  maxTerminalRuns : Int := 500
  maxOptimizationCandidates : Int := 200
  keepCollectorAfterCompletion : Bool := false
  keepCandidateInputAfterCleanup : Bool := false
deriving DecidableEq

/-- The records of all runs. -/
structure RunStore where
  runs : KeyMap RunId RunRecord := KeyMap.empty
  onlineLimits : OnlineRunLimits := {}
  lifecycle : RunStoreLifecycleConfig := {}

/-- Why a run is not created. -/
inductive CreateError where
  | batch (msg : String)
  | badID (runID : RunId)
  | alreadyExists (runID : RunId)
  | online (msg : String)
deriving DecidableEq

/-- Why a run is not started. -/
inductive StartError where
  | runNotFound (runID : RunId)
  | runTerminal (runID : RunId)
  | onlineRunConcurrencyLimit (limit : Int)
deriving DecidableEq

namespace RunStore

variable (s : RunStore) (runID : RunId)

/-- The record of a run. -/
def get : Option RunRecord :=
  s.runs.get runID

/-- A change of the record of a run; an unknown run is left alone. -/
def update (f : RunRecord → RunRecord) : RunStore :=
  { s with runs := s.runs.modify runID f }

/-- Drops what a run that has ended does not need. -/
def finalizeRunStorage (cfg : RunStoreLifecycleConfig) (rec : RunRecord) : RunRecord :=
  let kept := if cfg.keepCollectorAfterCompletion then rec else { rec with collector := false }
  if kept.isOptimizationChild && !cfg.keepCandidateInputAfterCleanup then
    { kept with input := none, optimizationHistory := 0, finalConfig := false }
  else kept

/-- Stores a new run. A run without an id is given a generated one. The check of a batch
optimization is a parameter; `parent` is the experiment that the run is a candidate of. -/
def create (validateBatch : RunInput → Option String) (generated : RunId) (input : Option RunInput)
    (parent : Option RunId) (now : Int) : Except CreateError (RunRecord × RunStore) :=
  match input.bind validateBatch with
  | some msg => .error (.batch msg)
  | none =>
    let runID := if runID = "" then generated else runID
    if runID.toList.any fun c => c == ':' || c == '/' then .error (.badID runID)
    else if (s.get runID).isSome then .error (.alreadyExists runID)
    else
      match input.mapM (prepareOnlineRunInput s.onlineLimits) with
      | .error msg => .error (.online msg)
      | .ok input =>
        let created : RunRecord :=
          { id := runID, createdAtUnixMs := now, input := input
            isOptimizationChild := "opt-".isPrefixOf runID, parent := parent }
        .ok (created, { s with runs := s.runs.set runID created })

/-- How many online optimizations are running. -/
def countRunningOnline : Nat :=
  s.runs.entries.countP fun e => e.2.runningOnline

/-- Whether the cap on online optimizations refuses one more. -/
def onlineCapReached (rec : RunRecord) : Bool :=
  (rec.input.bind (·.optimization)).any (·.online) &&
    decide (s.onlineLimits.maxConcurrentOnlineRuns > 0) &&
      decide ((s.countRunningOnline : Int) ≥ s.onlineLimits.maxConcurrentOnlineRuns)

/-- Starts a run that is pending. A run that is running is returned as it is. -/
def setStatusRunningWithOnlineConcurrencyGuard (now : Int) :
    Except StartError RunRecord × RunStore :=
  match s.get runID with
  | none => (.error (.runNotFound runID), s)
  | some rec =>
    if rec.status = .running then (.ok rec, s)
    else if rec.terminal then (.error (.runTerminal runID), s)
    else if s.onlineCapReached rec then
      (.error (.onlineRunConcurrencyLimit s.onlineLimits.maxConcurrentOnlineRuns), s)
    else
      let rec' :=
        { rec.withStatus .running with
          startedAtUnixMs := if rec.startedAtUnixMs = 0 then now else rec.startedAtUnixMs }
      (.ok rec', s.update runID fun _ => rec')

/-- The record after `SetStatus`. -/
def ended (cfg : RunStoreLifecycleConfig) (status : RunStatus) (errMsg : String) (now : Int)
    (rec : RunRecord) : RunRecord :=
  let set := { rec.withStatus status with error := if errMsg = "" then rec.error else errMsg }
  if status = .running then
    { set with startedAtUnixMs := if rec.startedAtUnixMs = 0 then now else rec.startedAtUnixMs }
  else if isTerminalStatus status then
    finalizeRunStorage cfg { set with endedAtUnixMs := now }
  else set

/-- Sets the status of a run, whatever it was. -/
def setStatus (status : RunStatus) (errMsg : String) (now : Int) : Option RunRecord × RunStore :=
  ((s.get runID).map (ended s.lifecycle status errMsg now),
    s.update runID (ended s.lifecycle status errMsg now))

/-- Stores the result of an optimization; of the candidates only as many as the store retains. -/
def setOptimizationResult (best : RunId) (score : ℚ) (iterations : Int) (candidates : List RunId) :
    RunStore :=
  let max := s.lifecycle.maxOptimizationCandidates
  s.update runID fun rec =>
    { rec with bestRunId := best, bestScore := score, iterations := iterations
               candidateRunIds := if max > 0 then candidates.take max.toNat else candidates }

/-- The candidates that a trim for an experiment keeps. -/
def keptCandidates (parent : RunRecord) (best : RunId) : List RunId :=
  let limit := s.lifecycle.maxOptimizationCandidates
  let listed :=
    if limit > 0 then parent.candidateRunIds.take limit.toNat else parent.candidateRunIds
  (if best = "" then [] else [best]) ++ listed.filter (· ≠ "")

/-- Deletes the candidates that have ended and are not among those kept for the experiment. -/
def trimOptimizationCandidates (parentRunID bestRunID : RunId) : RunStore :=
  match s.get parentRunID with
  | none => s
  | some parent =>
    { s with runs := s.runs.filterMap fun id rec =>
        if !rec.isOptimizationChild || !rec.terminal then some rec
        else if id ∈ s.keptCandidates parent bestRunID then
          some (finalizeRunStorage s.lifecycle rec)
        else none }

/-- When a run has ended; one without a time counts from its creation. -/
def endTime (rec : RunRecord) : Int :=
  if rec.endedAtUnixMs = 0 then rec.createdAtUnixMs else rec.endedAtUnixMs

/-- The order in which runs that have ended are evicted: candidates first, then the oldest. -/
def evictsBefore (a b : RunId × RunRecord) : Bool :=
  if a.2.isOptimizationChild != b.2.isOptimizationChild then a.2.isOptimizationChild
  else decide (endTime a.2 ≤ endTime b.2)

/-- Deletes the runs that ended too long ago, and drops what the others that have ended do not
need. -/
def expire (now : Int) : RunStore :=
  { s with runs := s.runs.filterMap fun _ rec =>
      if !rec.terminal then some rec
      else if s.lifecycle.ttl > 0 ∧ now - endTime rec ≥ milliseconds s.lifecycle.ttl then none
      else some (finalizeRunStorage s.lifecycle rec) }

/-- The runs that have ended, in the order in which the map is visited. -/
def terminalRuns (order : List RunId) : List (RunId × RunRecord) :=
  order.filterMap fun id =>
    (s.get id).bind fun rec => if rec.terminal then some (id, rec) else none

/-- The first runs in the order of eviction, beyond the number that is retained. -/
def evicted (order : List RunId) : List RunId :=
  let terminal := s.terminalRuns order
  let max := s.lifecycle.maxTerminalRuns
  if max ≤ 0 ∨ (terminal.length : Int) ≤ max then []
  else ((terminal.insertionSort fun a b => evictsBefore a b = true).take
    (terminal.length - max.toNat)).map Prod.fst

/-- Retention of the runs that have ended: by time, and then by number. -/
def cleanupNow (now : Int) (order : List RunId) : RunStore :=
  let fresh := s.expire now
  { fresh with runs := fresh.runs.filterMap fun id rec =>
      if id ∈ fresh.evicted order then none else some rec }

/-! ### What the operations do to a run -/

variable {s runID} {id : RunId} {now : Int} {rec : RunRecord}

theorem get_update {f : RunRecord → RunRecord} :
    (s.update runID f).get id = if id = runID then (s.get id).map f else s.get id := by
  rfl

/-- A guarded start fails and changes nothing, finds the run running and changes nothing, or makes a
run that has not ended running. -/
theorem setStatusRunning_cases (s : RunStore) (runID : RunId) (now : Int) :
    (∃ err, s.setStatusRunningWithOnlineConcurrencyGuard runID now = (.error err, s)) ∨
    (∃ rec, s.get runID = some rec ∧ rec.status = .running ∧
      s.setStatusRunningWithOnlineConcurrencyGuard runID now = (.ok rec, s)) ∨
    ∃ rec started, s.get runID = some rec ∧ rec.status ≠ .running ∧ rec.terminal = false ∧
      s.setStatusRunningWithOnlineConcurrencyGuard runID now =
        (.ok { rec.withStatus .running with startedAtUnixMs := started },
          s.update runID fun _ => { rec.withStatus .running with startedAtUnixMs := started }) := by
  rw [setStatusRunningWithOnlineConcurrencyGuard]
  cases hrec : s.get runID with
  | none => exact .inl ⟨_, rfl⟩
  | some rec =>
    simp only
    generalize (if rec.startedAtUnixMs = 0 then now else rec.startedAtUnixMs) = started
    split_ifs with hr ht hc
    · exact .inr (.inl ⟨rec, rfl, hr, rfl⟩)
    · exact .inl ⟨_, rfl⟩
    · exact .inl ⟨_, rfl⟩
    · exact .inr (.inr ⟨rec, started, rfl, hr, by simpa using ht, rfl⟩)

theorem get_setStatus {status : RunStatus} {errMsg : String} :
    (s.setStatus runID status errMsg now).2.get id =
      if id = runID then (s.get id).map (ended s.lifecycle status errMsg now) else s.get id :=
  get_update

/-- A trim keeps the runs that are not candidates or have not ended, and the candidates on its list;
it deletes the others. -/
theorem get_trimOptimizationCandidates {parent : RunRecord} {best : RunId}
    (hp : s.get runID = some parent) :
    (s.trimOptimizationCandidates runID best).get id = (s.get id).bind fun rec =>
      if !rec.isOptimizationChild || !rec.terminal then some rec
      else if id ∈ s.keptCandidates parent best then some (finalizeRunStorage s.lifecycle rec)
      else none := by
  rw [trimOptimizationCandidates, hp]
  simp only [get, KeyMap.get_filterMap]

@[simp] theorem terminal_finalizeRunStorage (cfg : RunStoreLifecycleConfig) (rec : RunRecord) :
    (finalizeRunStorage cfg rec).terminal = rec.terminal := by
  simp only [finalizeRunStorage]
  split_ifs <;> rfl

theorem terminal_ended_of_status {cfg : RunStoreLifecycleConfig} {status : RunStatus}
    {errMsg : String} (h : isTerminalStatus status = true) :
    (ended cfg status errMsg now rec).terminal = true := by
  have hne : status ≠ .running := by
    rintro rfl
    cases h
  simp only [ended, if_neg hne, h, if_true, terminal_finalizeRunStorage]
  exact h

theorem get_expire : (s.expire now).get id = (s.get id).bind fun rec =>
    if !rec.terminal then some rec
    else if s.lifecycle.ttl > 0 ∧ now - endTime rec ≥ milliseconds s.lifecycle.ttl then none
    else some (finalizeRunStorage s.lifecycle rec) :=
  KeyMap.get_filterMap _ _ _

theorem terminal_of_mem_evicted {order : List RunId} (h : id ∈ s.evicted order)
    (hr : s.get id = some rec) : rec.terminal = true := by
  simp only [evicted] at h
  split at h
  · simp at h
  · obtain ⟨⟨_, _⟩, hm, rfl⟩ := List.mem_map.1 h
    have hm := (List.mem_insertionSort _).1 (List.mem_of_mem_take hm)
    obtain ⟨_, -, hg⟩ := List.mem_filterMap.1 hm
    obtain ⟨_, hr'', hg⟩ := Option.bind_eq_some_iff.1 hg
    split at hg
    · rename_i ht
      cases hg
      rw [hr] at hr''
      exact Option.some.inj hr'' ▸ ht
    · cases hg

theorem get_cleanupNow_eq (s : RunStore) (now : Int) (order : List RunId) :
    (s.cleanupNow now order).get id =
      if id ∈ (s.expire now).evicted order then none else (s.expire now).get id := by
  have h : (s.cleanupNow now order).get id = ((s.expire now).get id).bind fun rec =>
      if id ∈ (s.expire now).evicted order then none else some rec :=
    KeyMap.get_filterMap _ _ _
  rw [h]
  split <;> cases (s.expire now).get id <;> rfl

/-- Retention deletes a run that has ended, or drops what it does not need; a run that has not ended
is left alone. -/
theorem get_cleanupNow (s : RunStore) (now : Int) (order : List RunId) (hr : s.get id = some rec) :
    (rec.terminal = false ∧ (s.cleanupNow now order).get id = some rec) ∨
    (rec.terminal = true ∧ ((s.cleanupNow now order).get id = none ∨
      (s.cleanupNow now order).get id = some (finalizeRunStorage s.lifecycle rec))) := by
  have he : (s.expire now).get id = _ := get_expire
  rw [hr, Option.bind_some] at he
  rw [get_cleanupNow_eq]
  cases hterminal : rec.terminal with
  | false =>
    rw [hterminal] at he
    refine .inl ⟨rfl, ?_⟩
    rw [if_neg]
    · exact he
    · intro hm
      have := terminal_of_mem_evicted hm he
      simp [hterminal] at this
  | true =>
    simp only [hterminal, Bool.not_true, Bool.false_eq_true, if_false] at he
    refine .inr ⟨rfl, ?_⟩
    split
    · exact .inl rfl
    · rw [he]
      split
      · exact .inl rfl
      · exact .inr rfl

theorem get_cleanupNow_of_none (now : Int) (order : List RunId) (hr : s.get id = none) :
    (s.cleanupNow now order).get id = none := by
  rw [get_cleanupNow_eq, get_expire, hr, Option.bind_none, ite_self]

theorem create_ok {validateBatch : RunInput → Option String} {generated : RunId}
    {input : Option RunInput} {parent : Option RunId} {s' : RunStore}
    (h : s.create runID validateBatch generated input parent now = .ok (rec, s')) :
    s.get rec.id = none ∧ s' = { s with runs := s.runs.set rec.id rec } ∧
      rec.status = .pending ∧ rec.history = [.pending] ∧ rec.candidateRunIds = [] ∧
      rec.isOptimizationChild = "opt-".isPrefixOf rec.id := by
  simp only [create] at h
  generalize (if runID = "" then generated else runID) = runID' at h
  split at h
  · cases h
  · split_ifs at h with hb he
    split at h
    · cases h
    · cases h
      exact ⟨by simpa using he, rfl, rfl, rfl, rfl, rfl⟩

theorem create_id {validateBatch : RunInput → Option String} {generated : RunId}
    {input : Option RunInput} {parent : Option RunId} {s' : RunStore}
    (h : s.create runID validateBatch generated input parent now = .ok (rec, s')) :
    rec.id = if runID = "" then generated else runID := by
  simp only [create] at h
  generalize (if runID = "" then generated else runID) = runID' at h ⊢
  split at h
  · cases h
  · split_ifs at h
    split at h
    · cases h
    · cases h
      rfl

end RunStore

end SimCore.Runs
