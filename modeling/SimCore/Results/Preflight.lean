import SimCore.Interaction.Acyclic
import SimCore.Results.Rows

/-!
# Preflight validation

The preflight of a scenario decodes it, validates it and places its services. A run then places the
services, builds the service graph and starts the workload generator. The preflight does not build
the graph, so that it accepts a scenario with a synchronous cycle; apart from that, what it accepts
can be initialised.

The decoder, and the function that derives a code and a field path from the text of a validation
error, are parameters.

## Main definitions

* `validateScenarioPreflight`: the preflight
* `newScenarioState`: the errors of the state of a run, those of the service graph

## Main results

* `preflight_sound`: what the preflight accepts can be initialised exactly if it has no synchronous
  cycle
* `preflight_cycle`: a scenario with a synchronous cycle that the preflight accepts
-/

namespace SimCore

open Config Interaction Workload List

namespace Simd

open Resource

/-- A finding of the preflight. -/
structure ScenarioValidationIssue where
  code : String
  message : String
  path : String := ""
  serviceID : String := ""
  hint : String := ""

/-- The size of a decoded scenario. -/
structure ScenarioValidationSummary where
  hosts : Nat := 0
  services : Nat := 0
  workloads : Nat := 0

/-- The outcome of the preflight. -/
structure ScenarioValidationResult where
  valid : Bool := false
  errors : List ScenarioValidationIssue := []
  warnings : List ScenarioValidationIssue := []
  summary : Option ScenarioValidationSummary := none

def placementHint : String :=
  "Check required_zones, required_host_labels, max_replicas_per_host, and available host " ++
    "CPU/memory."

/-- The size of a scenario. -/
def summaryPtr (sc : Scenario) : ScenarioValidationSummary where
  hosts := sc.hosts.length
  services := sc.services.length
  workloads := sc.workload.length

def extractServiceIDFromPlacementError (message : String) : String :=
  let head := "cannot place service ".toList
  if head.isPrefixOf message.toList then
    let rest := String.ofList (message.toList.drop head.length)
    match splitN2 ':' rest with
    | some (id, _) => if id = "" then trimSpace rest else trimSpace id
    | none => trimSpace rest
  else ""

/-- The preflight of a decoded scenario; the placement notes the time of the clock. -/
def validateScenarioPreflight (semanticIssue : String → String × String × String)
    (decoded : Except String Scenario) (clock : Time) : ScenarioValidationResult :=
  match decoded with
  | .error message =>
    { summary := some {}, errors := [{ code := "SCENARIO_PARSE_INVALID", message := message }] }
  | .ok sc =>
    match validateScenario sc with
    | .error message =>
      let (code, path, message) := semanticIssue message
      { summary := some (summaryPtr sc)
        errors := [{ code := code, message := message, path := path }] }
    | .ok () =>
      match Manager.initializeFromScenario sc clock with
      | .error message =>
        { summary := some (summaryPtr sc)
          errors := [{ code := "PLACEMENT_INFEASIBLE", message := message, hint := placementHint
                       serviceID := extractServiceIDFromPlacementError message }] }
      | .ok _ => { valid := true }

/-- The errors of the state of a run: those of the service graph. -/
def newScenarioState (sc : Scenario) : Except String Unit :=
  match newGraph sc with
  | .error message =>
    .error ("failed to create interaction manager: failed to create service graph: " ++ message)
  | .ok () => .ok ()

/-- The initialisation before a run reports no error: the placement, the state of the run and the
start of the generator, whenever and in whatever mode. -/
structure Initialises (sc : Scenario) : Prop where
  placed : ∀ clock, ∃ m, Manager.initializeFromScenario sc clock = .ok m
  state : newScenarioState sc = .ok ()
  started : ∀ fe fuel endTime realTime state,
    Silent (start fe fuel sc.normalizedWorkload endTime realTime state)

variable {sc : Scenario}

theorem accepts_of_preflight {semanticIssue : String → String × String × String} {clock : Time}
    (h : (validateScenarioPreflight semanticIssue (.ok sc) clock).valid = true) :
    validateScenario sc = .ok () ∧ ∃ m, Manager.initializeFromScenario sc clock = .ok m := by
  cases hv : validateScenario sc with
  | error => simp [validateScenarioPreflight, hv] at h
  | ok =>
    cases hp : Manager.initializeFromScenario sc clock with
    | error => simp [validateScenarioPreflight, hv, hp] at h
    | ok m => exact ⟨rfl, m, rfl⟩

/-! ### Arrivals -/

theorem supported_of_normalizeArrivalType {text type : String}
    (h : normalizeArrivalType text = .ok type) : type = "uniform" ∨ type ∈ supportedTypes := by
  rw [normalizeArrivalType] at h
  generalize trimSpace (toLower text) = word at h
  simp only at h
  generalize (if word = "burst" then "bursty" else word) = normal at h
  split_ifs at h with he hc
  rw [Except.ok.inj h] at hc
  simp only [contains_eq_mem, mem_cons, not_mem_nil, or_false, decide_eq_true_eq] at hc
  simp only [supportedTypes, mem_cons, not_mem_nil, or_false]
  tauto

theorem supported_of_accepted (h : Accepted sc) {row : WorkloadPattern}
    (hr : row ∈ sc.normalizedWorkload) :
    row.arrival.type = "uniform" ∨ row.arrival.type ∈ supportedTypes := by
  obtain ⟨wl, hwl, rfl⟩ := mem_map.1 hr
  obtain ⟨-, ⟨type, ht⟩, -⟩ := h.workload_row hwl
  have hn : wl.normalized.arrival.type = type := by
    rw [WorkloadPattern.normalized, ht]
    rfl
  rw [hn]
  exact supported_of_normalizeArrivalType ht

/-! ### What the preflight accepts -/

/-- What the preflight accepts is initialised without an error exactly if it has no synchronous
cycle. Moreover the start of the generator comes to an end, unless a constant rate puts more than
one arrival into a nanosecond, and it succeeds unless the search for a bursty arrival is given up.
Gaps between arrivals are exact here; the durations of the source hold those of all rates above
`1.1e-10` per second. -/
theorem preflight_sound {semanticIssue : String → String × String × String} {clock : Time}
    (h : (validateScenarioPreflight semanticIssue (.ok sc) clock).valid = true) :
    (Initialises sc ↔ ¬ SyncCycle sc) ∧
    ((∀ row ∈ sc.normalizedWorkload, Paced row) → ∀ fe endTime realTime state, ∃ enough result,
      (∀ n, enough ≤ n → start fe n sc.normalizedWorkload endTime realTime state = result) ∧
      ((∃ s, result = .ok s) ∨ result = .error (.crashed burstyLimit) ∧
        ∃ row ∈ sc.normalizedWorkload, row.arrival.type = "bursty")) := by
  obtain ⟨hv, m, hp⟩ := accepts_of_preflight h
  have ha := accepted_of_valid hv
  have hg : newScenarioState sc = .ok () ↔ ¬ SyncCycle sc := by
    rw [← newGraph_eq_ok_iff ha, newScenarioState]
    cases newGraph sc <;> simp
  refine ⟨⟨fun hi => hg.1 hi.state, fun hac => ⟨Manager.placed_of_placed hp,
    hg.2 hac, fun fe fuel endTime realTime state =>
      silent_start (readable_of_accepted ha)⟩⟩, fun hpa fe endTime realTime state => ?_⟩
  -- only the search for a bursty arrival is given up
  have he : Ends (fun halt => halt = .unfinished ∨ halt = .crashed burstyLimit ∧
      ∃ row ∈ sc.normalizedWorkload, row.arrival.type = "bursty") True fun n =>
      start fe n sc.normalizedWorkload endTime realTime state := by
    refine ends_start (.inl rfl) (readable_of_accepted ha) fun row hrow =>
      ⟨fun hn t epoch history halt hh => ?_, fun _ => hpa row hrow⟩
    obtain ⟨_, rfl, hb⟩ := haltsBy_calculateNextArrivalTime halt hh
    obtain ⟨ht, rfl⟩ := hb ((supported_of_accepted ha hrow).resolve_left hn)
    exact .inr ⟨rfl, row, hrow, ht⟩
  obtain ⟨result, hf, enough, hr⟩ := he.settles trivial
  refine ⟨enough, result, hr, ?_⟩
  cases result with
  | ok s => exact .inl ⟨s, rfl⟩
  | error halt =>
    rcases he.haltsBy enough halt (hr enough le_rfl) with rfl | ⟨rfl, hrow⟩
    · exact absurd rfl hf
    · exact .inr ⟨rfl, hrow⟩

/-- A service with one endpoint that calls the given target. -/
def calling (id target mode : String) : Service where
  id := id
  endpoints := [{ path := "/", downstream := [{ target := target, mode := mode }] }]

/-- A scenario in which the endpoint of a service calls itself. -/
def selfCalling (mode : String) : Scenario where
  hosts := [{ id := "h", cores := 4 }]
  services := [calling "api" "api" mode]
  workload :=
    [{ source := "client", target := "api:/", arrival := { type := "poisson", rateRPS := 1 } }]

/-- An endpoint that calls itself asynchronously is initialised. -/
theorem preflight_sound_async : Initialises (selfCalling "async") := by
  have hv : (validateScenarioPreflight (fun message => ("", "", message))
      (.ok (selfCalling "async")) 0).valid = true := by decide +kernel
  have hk : (selfCalling "async").endpointEntries.map (·.1) = ["api:/"] := by decide +kernel
  have hs : ∀ key, syncSuccessors (selfCalling "async") key = [] := by
    intro key
    by_cases hkey : key = "api:/"
    · subst hkey
      decide +kernel
    · exact syncSuccessors_of_not_mem (by simp [hk, hkey])
  refine (preflight_sound hv).1.2 ?_
  rintro ⟨key, hc⟩
  obtain ⟨_, hn, -⟩ := Relation.TransGen.head'_iff.1 hc
  rw [hs key] at hn
  simp at hn

/-- The preflight accepts an endpoint that calls itself synchronously, but the run fails before it
starts. -/
theorem preflight_cycle :
    (validateScenarioPreflight (fun message => ("", "", message)) (.ok (selfCalling "sync"))
      0).valid = true ∧
      newScenarioState (selfCalling "sync") = .error ("failed to create interaction manager: " ++
        "failed to create service graph: service graph contains synchronous cycles: " ++
        "cycle detected: api:/ -> api:/") := by
  have hv : validateScenario (selfCalling "sync") = .ok () := by decide +kernel
  have hp : (Manager.initializeFromScenario (selfCalling "sync") 0).toBool = true := by
    decide +kernel
  refine ⟨?_, by decide +kernel⟩
  cases hm : Manager.initializeFromScenario (selfCalling "sync") 0 with
  | error => simp [hm, Except.toBool] at hp
  | ok => simp [validateScenarioPreflight, hv, hm]

end Simd

end SimCore
