import Mathlib.Order.BoundedOrder.Basic
import SimCore.Config.Scenario

/-!
# Hill climbing

The optimizer evaluates the neighbours of a current configuration and moves to the best of them
while it is better than the current one. Explorer, convergence strategy and evaluation are
parameters that may keep a state of their own. Scores are any linear order with a largest element,
which stands for `math.MaxFloat64`. Configurations are values, so that clones are not needed, and
the progress reporter is left out.

## Main definitions

* `Optimizer.sweep`: the evaluation of all neighbours
* `Optimizer.iterate`: one iteration
* `Optimizer.optimize`: a whole search
-/

namespace SimCore.Improvement

open Config

/-- How an evaluation fails. -/
inductive EvalError where
  | canceled
  | failed (message : String)
deriving DecidableEq

/-- An entry of the history of a search. -/
structure OptimizationStep (S : Type) where
  iteration : Nat
  score : S
  config : Scenario

/-- The outcome of a search. -/
structure OptimizationResult (S : Type) where
  bestConfig : Scenario
  bestScore : S
  iterations : Nat
  history : List (OptimizationStep S)
  converged : Bool
  convergenceReason : String

/-- A hill-climbing search over an outside state. -/
structure Optimizer (S σ : Type) where
  maxIterations : Int
  /-- A bound on the number of evaluations; zero stands for none. -/
  maxEvaluations : Nat := 0
  generateNeighbors : Scenario → σ → List Scenario × σ
  checkConvergence : Option (List (OptimizationStep S) → σ → Option String × σ) := none
  evaluateFunc : Scenario → σ → Except EvalError S × σ

/-- The state of a search. The calls of the evaluation are recorded. -/
structure OptimizerState (S σ : Type) where
  outside : σ
  evaluations : Nat := 0
  iteration : Nat := 0
  bestConfig : Scenario
  bestScore : S
  history : List (OptimizationStep S) := []
  calls : List (Scenario × Except EvalError S) := []

/-- How a sweep ends. -/
inductive SweepEnd (S : Type) where
  | canceled
  | capped
  | complete (best : Scenario × S)

/-- How an iteration ends: the search is over, or it goes on from a configuration. -/
inductive IterationEnd (S : Type) where
  | over (result : Except EvalError (OptimizationResult S))
  | goOn (current : Scenario × S)

namespace Optimizer

variable {S σ : Type} [LinearOrder S] [OrderTop S] (o : Optimizer S σ)

/-- One call of the evaluation. -/
def evaluate (c : Scenario) (s : OptimizerState S σ) : Except EvalError S × OptimizerState S σ :=
  let r := o.evaluateFunc c s.outside
  (r.1, { s with outside := r.2, evaluations := s.evaluations + 1, calls := s.calls ++ [(c, r.1)] })

/-- Evaluates neighbours one by one until the bound is reached. -/
def sweep : List Scenario → Scenario × S → OptimizerState S σ → SweepEnd S × OptimizerState S σ
  | [], best, s => (.complete best, s)
  | c :: rest, best, s =>
    if 0 < o.maxEvaluations ∧ o.maxEvaluations ≤ s.evaluations then (.capped, s)
    else
      match o.evaluate c s with
      | (.error .canceled, s) => (.canceled, s)
      | (.error (.failed _), s) => sweep rest best s
      | (.ok score, s) => sweep rest (if score < best.2 then (c, score) else best) s

/-- The result from a state. -/
def buildResult (converged : Bool) (reason : String) (s : OptimizerState S σ) :
    OptimizationResult S where
  bestConfig := s.bestConfig
  bestScore := s.bestScore
  iterations := s.iteration
  history := s.history
  converged := converged
  convergenceReason := reason

/-- Adds the current configuration to the history. -/
def record (current : Scenario × S) (s : OptimizerState S σ) : OptimizerState S σ :=
  { s with history := s.history ++ [⟨s.iteration, current.2, current.1⟩] }

/-- One iteration of a search. -/
def iterate (current : Scenario × S) (s : OptimizerState S σ) :
    IterationEnd S × OptimizerState S σ :=
  let (neighbors, outside) := o.generateNeighbors current.1 s.outside
  let s := { s with iteration := s.iteration + 1, outside := outside }
  match neighbors with
  | [] => (.over (.ok (buildResult true "no valid neighbors" s)), s)
  | first :: rest =>
    match o.sweep (first :: rest) (first, ⊤) s with
    | (.canceled, s) => (.over (.error .canceled), s)
    | (.capped, s) => (.over (.ok (buildResult false "max evaluations reached" s)), s)
    | (.complete best, s) =>
      if best.2 < current.2 then
        let s := if best.2 < s.bestScore then
          { s with bestScore := best.2, bestConfig := best.1 } else s
        (.goOn best, record best s)
      else
        let s := record current s
        match o.checkConvergence with
        | none => (.goOn current, s)
        | some check =>
          match check s.history s.outside with
          | (some reason, outside) =>
            (.over (.ok (buildResult true reason s)), { s with outside := outside })
          | (none, outside) => (.goOn current, { s with outside := outside })

/-- The iterations of a search, at most as many as given. -/
def climb : Nat → Scenario × S → OptimizerState S σ →
    Except EvalError (OptimizationResult S) × OptimizerState S σ
  | 0, _, s => (.ok (buildResult false "max iterations reached" s), s)
  | n + 1, current, s =>
    match o.iterate current s with
    | (.over result, s) => (result, s)
    | (.goOn current, s) => climb n current s

/-- The state once the initial configuration got its score. -/
def start (initial : Scenario) (score : S) (s : OptimizerState S σ) : OptimizerState S σ :=
  record (initial, score) { s with bestScore := score }

/-- A search from an initial configuration. -/
def optimize (initial : Scenario) (outside : σ) :
    Except EvalError (OptimizationResult S) × OptimizerState S σ :=
  match o.evaluate initial { outside := outside, bestConfig := initial, bestScore := ⊤ } with
  | (.error .canceled, s) => (.error .canceled, s)
  | (.error (.failed message), s) =>
    (.error (.failed ("failed to evaluate initial configuration: " ++ message)), s)
  | (.ok score, s) =>
    o.climb o.maxIterations.toNat (initial, score) (start initial score s)

end Optimizer

end SimCore.Improvement
