import SimCore.Config.Validate

/-!
# The service graph

Downstream edges of the endpoints, the check that the synchronous edges are acyclic, and the
stochastic choice of the calls that a completed request makes.

## Main definitions

* `Scenario.downstreamEdges`: the edges of an endpoint, in declaration order
* `newGraph`: the errors of graph construction, including a synchronous cycle
* `selectCalls`: the default branching strategy
-/

namespace SimCore.Interaction

open Config

structure ResolvedCall where
  serviceID : String
  path : String
  call : DownstreamCall := {}
deriving DecidableEq

/-- The parser of downstream targets at graph construction. -/
def parseDownstreamTarget (target : String) : Except String (String × String) :=
  let target := trimSpace target
  if target = "" then .error "downstream target cannot be empty"
  else
    match splitN2 ':' target with
    | some (s, p) =>
      let expected := "invalid downstream target format: " ++ target
      if trimSpace s = "" then .error (expected ++ " (serviceID must be non-empty)")
      else if trimSpace p = "" then .error (expected ++ " (path must be non-empty)")
      else .ok (trimSpace s, trimSpace p)
    | none => .ok (target, "/")

/-- Targets that the loader accepts are read in the same way at graph construction. -/
theorem parseDownstreamTarget_of_valid {target : String} {parts : String × String}
    (h : parseDownstreamTargetForValidation target = .ok parts) :
    parseDownstreamTarget target = .ok parts := by
  unfold parseDownstreamTargetForValidation at h
  unfold parseDownstreamTarget
  generalize trimSpace target = text at h ⊢
  generalize splitN2 ':' text = split at h ⊢
  cases split with
  | none => grind -ring -linarith
  | some => grind -ring -linarith

/-- The edge of a declared call; the target service must exist. -/
def createEdge (sc : Scenario) (call : DownstreamCall) : Except String ResolvedCall :=
  match parseDownstreamTarget call.target with
  | .error message =>
    .error ("invalid downstream target " ++ quote call.target ++ ": " ++ message)
  | .ok (svc, path) =>
    match sc.service? svc with
    | none => .error ("downstream service " ++ quote svc ++ " does not exist")
    | some _ => .ok ⟨svc, path, call⟩

/-- The declared calls of all endpoints that share a key, in order. -/
def declaredCalls (sc : Scenario) (key : String) : List DownstreamCall :=
  (sc.endpointEntries.filter (·.1 == key)).flatMap (·.2.downstream)

/-- `GetDownstreamEdges`, as resolved calls. -/
def downstreamEdges (sc : Scenario) (serviceID path : String) : List ResolvedCall :=
  (declaredCalls sc (endpointKey serviceID path)).filterMap fun call =>
    (createEdge sc call).toOption

/-- The first edge of the parent's endpoint to a target, `resolveDownstreamCallSpec`. -/
def resolveDownstreamCallSpec (sc : Scenario) (parentSvc parentPath childSvc childPath : String) :
    Option DownstreamCall :=
  ((downstreamEdges sc parentSvc parentPath).find? fun e =>
    e.serviceID == childSvc && e.path == childPath).map (·.call)

/-! ### Synchronous cycles -/

/-- Keys reached by synchronous edges from an endpoint key. -/
def syncSuccessors (sc : Scenario) (key : String) : List String :=
  ((declaredCalls sc key).filterMap fun call => (createEdge sc call).toOption).filterMap fun e =>
    if e.call.isAsync then none else some (endpointKey e.serviceID e.path)

/-- The error of a search that runs out of turns, which the source does not have. -/
def outOfTurns : String := "out of turns"

/-- Depth-first search over synchronous edges; `path` is the recursion stack. -/
def dfs (sc : Scenario) : Nat → List String → List String → String → Except String (List String)
  | 0, _, _, _ => .error outOfTurns
  | fuel + 1, visited, path, key =>
    (syncSuccessors sc key).foldlM (fun visited next =>
      if next ∉ visited then dfs sc fuel visited (key :: path) next
      else if next ∈ key :: path then
        .error ("cycle detected: " ++ key ++ " -> " ++ next)
      else .ok visited) (key :: visited)

/-- Whether the synchronous edges are acyclic. -/
def validateSyncAcyclic (sc : Scenario) : Except String Unit := do
  let keys := sc.endpointEntries.map (·.1)
  let fuel := keys.length + (keys.flatMap (syncSuccessors sc)).length + 1
  let _ ← keys.foldlM (fun visited key =>
    if key ∈ visited then .ok visited else dfs sc fuel visited [] key) []
  return ()

/-- The errors of graph construction. -/
def newGraph (sc : Scenario) : Except String Unit := do
  checkEach (fun _ (entry : String × Endpoint) =>
    checkEach (fun _ call =>
      match createEdge sc call with
      | .ok _ => .ok ()
      | .error message => .error ("failed to create edge from " ++ entry.1 ++ ": " ++ message))
      0 entry.2.downstream) 0 sc.endpointEntries
  match validateSyncAcyclic sc with
  | .ok () => .ok ()
  | .error message => .error ("service graph contains synchronous cycles: " ++ message)

/-! ### Branching -/

/-- How often one edge is called, with the number of draws used. -/
def callCount (draw : Nat → ℚ) (i : Nat) (call : DownstreamCall) : Nat × Nat :=
  let prob := if call.probability ≤ 0 ∨ call.probability > 1 then 1 else call.probability
  if prob < 1 ∧ draw i ≥ prob then (0, i + 1)
  else
    let i := if prob < 1 then i + 1 else i
    let mean := if call.callCountMean ≤ 0 then 1 else call.callCountMean
    let base := ⌊mean⌋.toNat
    let frac := mean - ⌊mean⌋
    if frac > 0 then (if draw i < frac then base + 1 else base, i + 1) else (base, i)

/-- The calls to make, each as often as drawn; `draw` is the branching stream. -/
def selectCalls (draw : Nat → ℚ) : Nat → List ResolvedCall → List ResolvedCall × Nat
  | i, [] => ([], i)
  | i, c :: rest =>
    let (count, i) := callCount draw i c.call
    let (selected, i) := selectCalls draw i rest
    (List.replicate count c ++ selected, i)

end SimCore.Interaction
