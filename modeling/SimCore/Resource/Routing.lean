import SimCore.Resource.Manager

/-!
# Instance selection

`SelectInstanceForRequest`: the candidates are the cached routable instances of the service,
restricted to the preferred zone if it has any; the strategy of the endpoint's policy, else of the
service's, picks one of them. A strategy outside the supported ones is an error, and the loader does
not check the field.

The random strategy and the hash of the sticky strategy are parameters (`RoutingOracle`).

## Main definitions

* `Manager.selectInstanceForRequest`: the selected instance id with the strategy applied
* `Manager.selectInstanceForService`: plain round robin over the cached instances
-/

namespace SimCore.Resource

open Config

/-- The pseudo-random choices of routing: the `i`-th draw below `n`, and the sticky hash. -/
structure RoutingOracle where
  intn : Nat → Nat → Nat
  stickyHash : String → Nat
  intn_lt : ∀ i n, 0 < n → intn i n < n

/-- The part of a request that routing reads: its endpoint and its metadata as text. -/
structure RoutingRequest where
  endpoint : String
  metadata : String → Option String

namespace Manager

/-- The strategy name in normal form; empty means round robin. -/
def normalizeRoutingStrategy (s : String) : String :=
  if normWord s = "" then "round_robin" else normWord s

/-- The policy in force for a request: the endpoint's, else the service's. -/
def routingPolicyForRequest (m : Manager) (svc : String) (req : RoutingRequest) :
    Option RoutingPolicy :=
  match m.endpointRouting (endpointKey svc req.endpoint) with
  | some p => some p
  | none => m.serviceRouting svc

/-- The candidates in the preferred zone, or all of them if there is none. -/
def applyLocalityPreference (m : Manager) (ids : List String) (pol : Option RoutingPolicy)
    (req : RoutingRequest) : List String :=
  match pol with
  | none => ids
  | some p =>
    let key := trimSpace p.localityZoneFrom
    let zone := trimSpace ((req.metadata key).getD "")
    if key = "" ∨ zone = "" then ids
    else
      let preferred := ids.filter fun id =>
        match (m.instance? id).bind fun inst => m.host? inst.hostID with
        | some h => equalFold (trimSpace h.zone) zone
        | none => false
      if preferred.isEmpty then ids else preferred

/-- Round robin over the candidates. -/
def selectRoundRobin (m : Manager) (svc : String) (ids : List String) : String × Manager :=
  let idx := if m.roundRobinIdx svc ≥ ids.length then 0 else m.roundRobinIdx svc
  (ids.getD idx "",
    { m with roundRobinIdx := Function.update m.roundRobinIdx svc ((idx + 1) % ids.length) })

/-- The first candidate with the least value. -/
def selectLeast (ids : List String) (value : String → ℚ) : String :=
  match ids with
  | [] => ""
  | id :: rest => rest.foldl (fun best id => if value id < value best then id else best) id

def weightedWheelSlots (w : ℚ) : Nat :=
  if w ≤ 0 then 0 else max 1 (toInt64 (w * 1000 + 1 / 2)).toNat

theorem weightedWheelSlots_lt (w : ℚ) : weightedWheelSlots w < 2 ^ 63 := by
  have := toInt64_lt (w * 1000 + 1 / 2)
  unfold weightedWheelSlots
  split_ifs <;> omega

/-- Slots of every candidate. -/
def wheel (ids : List String) (pol : Option RoutingPolicy) : List Nat :=
  ids.map fun id =>
    weightedWheelSlots (((pol.map RoutingPolicy.weights).getD []).lookup id |>.getD 1)

/-- The running total of the slots, in the integers of the machine. -/
def wheelTotal (slots : List Nat) : Int :=
  slots.foldl (fun (total : Int) (n : Nat) => wrapInt64 (total + n)) 0

/-- The first candidate whose running total is beyond the cursor. -/
def wheelPick (cursor : Nat) : Int → List String → List Nat → String
  | total, id :: ids, n :: ns =>
    let total := wrapInt64 (total + n)
    if (cursor : Int) < total ∨ ids.isEmpty then id else wheelPick cursor total ids ns
  | _, _, _ => ""

/-- Weighted round robin; without a positive total it is round robin. -/
def selectWeighted (m : Manager) (svc : String) (ids : List String) (pol : Option RoutingPolicy) :
    (String × String) × Manager :=
  let slots := wheel ids pol
  let total := (wheelTotal slots).toNat
  if wheelTotal slots ≤ 0 then
    let (id, m) := m.selectRoundRobin svc ids
    ((id, "round_robin"), m)
  else
    let cursor := m.weightedRoundRobinIdx svc % total
    ((wheelPick cursor 0 ids slots, "weighted_round_robin"),
      { m with weightedRoundRobinIdx :=
          Function.update m.weightedRoundRobinIdx svc ((cursor + 1) % total) })

/-- Sticky selection by the hash of a metadata value; without the value it is round robin. -/
def selectSticky (m : Manager) (oracle : RoutingOracle) (svc : String) (ids : List String)
    (pol : Option RoutingPolicy) (req : RoutingRequest) : (String × String) × Manager :=
  let key := trimSpace ((pol.map RoutingPolicy.stickyKeyFrom).getD "")
  match if key = "" then none else req.metadata key with
  | some v => ((ids.getD (oracle.stickyHash v % ids.length) "", "sticky"), m)
  | none =>
    let (id, m) := m.selectRoundRobin svc ids
    ((id, "round_robin"), m)

/-- Selects an instance for a request; returns its id, the strategy and the new cursors. -/
def selectInstanceForRequest (m : Manager) (oracle : RoutingOracle) (svc : String)
    (req : RoutingRequest) (t : Time) : Except String ((String × String) × Manager) :=
  let ids := m.sortedServiceInstMap svc
  if ids.isEmpty then .error ("no instances available for service " ++ svc)
  else
    let pol := m.routingPolicyForRequest svc req
    let ids := m.applyLocalityPreference ids pol req
    let strategy := normalizeRoutingStrategy ((pol.map RoutingPolicy.strategy).getD "")
    let least := fun (value : ServiceInstance → ℚ) =>
      Except.ok ((selectLeast ids fun id => ((m.instance? id).map value).getD 0, strategy), m)
    if strategy = "round_robin" then
      let (id, m) := m.selectRoundRobin svc ids
      .ok ((id, strategy), m)
    else if strategy = "random" then
      .ok ((ids.getD (oracle.intn m.routingDraws ids.length) "", strategy),
        { m with routingDraws := m.routingDraws + 1 })
    else if strategy = "least_connections" then least fun i => i.activeRequests
    else if strategy = "least_queue" then least fun i => i.requestQueue.length
    else if strategy = "least_cpu" then least fun i => i.cpuUtilizationAt t
    else if strategy = "weighted_round_robin" then .ok (m.selectWeighted svc ids pol)
    else if strategy = "sticky" then .ok (m.selectSticky oracle svc ids pol req)
    else .error ("unsupported routing strategy " ++ quote strategy ++ " for service " ++ svc)

/-- Why a selection for a service fails. -/
inductive SelectError where
  | noInstances (serviceName : String)
  /-- The source indexes the cached slice out of range and panics. -/
  | indexOutOfRange
deriving DecidableEq

/-- Round robin over the cached instances of a service. -/
def selectInstanceForService (m : Manager) (svc : String) : Except SelectError (String × Manager) :=
  let ids := m.sortedServiceInstMap svc
  if ids.isEmpty then .error (.noInstances svc)
  else
    match ids[m.roundRobinIdx svc]? with
    | none => .error .indexOutOfRange
    | some id =>
      let next := (m.roundRobinIdx svc + 1) % ids.length
      .ok (id, { m with roundRobinIdx := Function.update m.roundRobinIdx svc next })

end Manager

end SimCore.Resource
