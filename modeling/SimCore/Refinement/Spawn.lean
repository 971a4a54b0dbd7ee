import SimCore.Config.Accepted
import SimCore.Refinement.Finalization

/-!
# Spawns, retries and caller overhead as actions

The handlers that carry a downstream call on: a spawn creates an attempt that starts or fails at
once, an edge that costs the caller CPU time first reserves it, and an edge to a broker publishes.

## Main results

* `via_retry`: the retry of a request that failed before its local work
* `via_execDownstreamSpawn`: a spawn
* `dispatchEdge_cases`, `scheduleDownstream_cases`: what becomes of one edge
* `via_handleDownstreamCallerOverheadStart`, `via_handleDownstreamCallerOverheadEnd`,
  `via_handleDownstreamCall`, `via_handleDownstreamRetry`
-/

namespace SimCore.Simd

open Protocol Resource Config Interaction State Manager Flow

variable {env : Env} {s s' s₀ : State} {h : Hand} {c : List ReqId} {f₀ : Flow} {r p : ReqId}
  {t : Time} {k : EventKind} {d : SpawnData}

/-! ### Retries -/

theorem retryPolicyFor_eq_some {attempt : Int} {pol : RetryPolicy}
    (hp : retryPolicyFor env attempt = some pol) : attempt < retryLimit env ∧
      (Forward env → ∀ n, s.now ≤ s.now + Policy.getBackoffDuration pol n) := by
  obtain ⟨hac, hr⟩ := Option.filter_eq_some_iff.1 hp
  refine ⟨?_, fun hf n => le_add_of_nonneg_right (hf pol hac n)⟩
  simp only [retryLimit, hac]
  rw [Policy.shouldRetry, Bool.and_eq_true] at hr
  exact of_decide_eq_true hr.2

/-- A retry marks the attempt and schedules its successor. -/
theorem maybeRetryWith_eq_some {isAsync : Bool} {mark : Request → Request}
    (hs : maybeRetryWith env s r p isAsync mark = some s') :
    (s.req r).retryAttempt < retryLimit env ∧ ∃ t, (Forward env → s.now ≤ t) ∧ ∀ h c, s'.flow h c =
      ((s.update r mark).flow h c).issue t (.downstreamRetry (retrySpawn (s.req r) p isAsync)) := by
  unfold maybeRetryWith at hs
  split at hs
  · cases hs
  · rename_i hp
    split at hs
    · cases hs
      obtain ⟨hl, hfo⟩ := retryPolicyFor_eq_some hp
      exact ⟨hl, _, fun hf => hfo hf _, fun h c => flow_scheduleAt _ _⟩
    · cases hs

theorem flow_isolate : (s.update r isolateFailedSyncAttempt).flow h c =
    (s.flow h c).setJob r fun j => { j with callerSyncResolved := true } :=
  flow_update _ fun _ => rfl

/-- A request that failed before its local work is replaced by a new attempt. -/
theorem via_retry {cause : Cause} (hs : maybeRetrySyncStartFailure env s r = some s')
    (hv : Via env f₀ (s.flow (.failed r cause) c)) :
    Via env f₀ ((s'.observe (cause.obs r .retried)).flow .free c) := by
  unfold maybeRetrySyncStartFailure at hs
  split at hs
  · cases hs
  rename_i p hp
  split at hs
  · cases hs
  rename_i ha
  obtain ⟨_, hs₁, rfl⟩ := Option.map_eq_some_iff.1 hs
  obtain ⟨hl, t, ht, hf⟩ := maybeRetryWith_eq_some hs₁
  have hact := hv.act (.retry r p cause t (retrySpawn (s.req r) p false) rfl
    (by simpa using hp) (by simpa using ha) (by simpa using hl)
    (by rw [job_flow]; rfl) ht)
  rw [job_flow] at hact
  rw [flow_observe]
  split_ifs with hr
  · rw [flow_observe, hf, flow_isolate]
    rw [noteIf_pos hr] at hact
    exact hact
  · rw [hf, flow_isolate]
    rw [noteIf_neg hr] at hact
    exact hact

/-! ### Attempts -/

@[simp] theorem createDownstreamRequest_toJob (parent : Request) (svc path : String) :
    (createDownstreamRequest parent p svc path).toJob =
      { parent := some p, serviceName := svc, endpoint := path } := by
  unfold createDownstreamRequest
  split
  · exact Request.setText_toJob (by decide) ..
  · rfl

theorem newDownstreamRequest_toJob (d : SpawnData) :
    (newDownstreamRequest s d).toJob = (core d).job s.now .pending .idle none := by
  simp [newDownstreamRequest, Request.inherit_toJob, SpawnCore.job, core]

theorem newDownstreamRequest_failed_toJob (d : SpawnData) :
    ({ newDownstreamRequest s d with status := .failed } : Request).toJob =
      (core d).job s.now .failed .idle none := by
  have hj := newDownstreamRequest_toJob (s := s) d
  exact congrArg (fun j : Job => { j with status := .failed }) hj

theorem newDownstreamRequest_isRoot (d : SpawnData) :
    (newDownstreamRequest s d).isRoot = false := by
  simp [Request.isRoot, newDownstreamRequest_toJob, SpawnCore.job]

@[simp] theorem flow_drawDependencyFailure (d : SpawnData) (dsCall : DownstreamCall) :
    (drawDependencyFailure env s d dsCall).2.flow h c = s.flow h c := by
  unfold drawDependencyFailure
  simp only
  split <;> simp

/-- The state in which the attempt of a spawn event is made: the caller's CPU work for it is over,
and the attempt has been noted. -/
structure Attempting (env : Env) (t : Time) (k : EventKind) (d : SpawnData) (s₀ s : State) :
    Prop where
  role : role k = .spawn (core d)
  timeout : d.timeoutMs = (s₀.flow (.event t k) []).timeoutFor env (core d) k
  flow : ∀ h c, s.flow h c =
    ((s₀.flow h c).arrive k).note ((s₀.flow (.event t k) []).attempt env k (core d))

namespace Attempting

variable {k : EventKind} {d : SpawnData} (ha : Attempting env t k d s₀ s)

include ha

theorem length : s.heap.length = s₀.heap.length := by
  have hj := congrArg (fun f : Flow => f.jobs.length) (ha.flow .free [])
  simpa using hj

theorem now : s.now = s₀.now :=
  congrArg Flow.now (ha.flow .free [])

theorem timeoutEvents (c : List ReqId) : (s₀.flow (.event t k) c).timeoutEvents env k (core d) =
    if d.timeoutMs > 0 then
      [(s.now + wholeMsToDuration d.timeoutMs, .downstreamTimeout s.heap.length d.parent d.isAsync)]
    else [] := by
  have ht : (s₀.flow (.event t k) c).timeoutFor env (core d) k = d.timeoutMs := ha.timeout.symm
  rw [Flow.timeoutEvents, ht, Flow.size, flow_length, ha.length, ha.now]
  rfl

theorem congr (hs : ∀ h c, s'.flow h c = s.flow h c) : Attempting env t k d s₀ s' :=
  ⟨ha.role, ha.timeout, fun h c => (hs h c).trans (ha.flow h c)⟩

theorem routable {i : String} (hi : s.rm.ledger.Routable i) : s₀.rm.ledger.Routable i := by
  have hl : s.rm.ledger = k.arrived s₀.rm.ledger := congrArg Flow.ledger (ha.flow .free [])
  rw [hl] at hi
  cases k <;> exact hi

end Attempting

theorem via_spawnDependencyFailure {dsCall : DownstreamCall} (ha : Attempting env t k d s₀ s)
    (hv : Via env f₀ (s₀.flow (.event t k) c)) :
    Via env f₀ ((spawnDependencyFailure env s d dsCall).flow .free c) := by
  unfold spawnDependencyFailure
  simp only
  set s₁ := (s.alloc { newDownstreamRequest s d with status := .failed }).addRequest s.heap.length
    with hs₁
  have hf : ∀ h c, s₁.flow h c =
      ((s.flow h c).addJob ((core d).job s.now .failed .idle none)).register s.heap.length := by
    intro h c
    rw [hs₁, flow_addRequest, flow_alloc, newDownstreamRequest_failed_toJob]
  have hro : (s₁.req s.heap.length).isRoot = false := by
    rw [Request.isRoot, ← flow_job (h := .free) (c := []), hf]
    simp [SpawnCore.job]
  set s₂ := s₁.record .requestCount 1 (s₁.req s.heap.length).labels (some s.heap.length) with hs₂
  have hfa : Via env f₀ (s₂.flow (.failed s.heap.length .dependency) c) := by
    have hact := hv.act (.spawnFail t k (core d) rfl ha.role)
    rw [size, flow_length, ← ha.length] at hact
    rw [hs₂, flow_record_requestCount hro, hf, ha.flow, ha.now]
    exact hact
  split
  · rename_i hr
    unfold maybeRetrySyncDependencyFailure at hr
    split at hr
    · rw [flow_observe, flow_record_other rfl]
      exact via_retry hr hfa
    · cases hr
  · exact via_finalizeRequestFailure (.inl rfl) (hfa.act (.giveUp _ .dependency rfl (by decide)))

theorem via_spawnAttempt (ha : Attempting env t k d s₀ s)
    (hv : Via env f₀ (s₀.flow (.event t k) c)) :
    Via env f₀ ((spawnAttempt env s d).flow .free c) := by
  unfold spawnAttempt
  simp only
  split
  · rw [flow_observe, flow_record_other rfl,
      flow_alloc, flow_record_requestCount (newDownstreamRequest_isRoot d),
      newDownstreamRequest_failed_toJob, ha.flow, ha.now]
    exact hv.act (.spawnLost t k (core d) d rfl ha.role rfl)
  · rename_i id s₁ hsel
    have hre : ∀ h c, (s.record .requestCount 1 (newDownstreamRequest s d).labels
        (some s.heap.length)).flow h c = s.flow h c := fun h c =>
      flow_record_requestCount (newDownstreamRequest_isRoot d) ..
    have hs₁ : ∀ h c, s₁.flow h c = s.flow h c := fun h c =>
      (flow_selectInstanceForRequest hsel).1.trans (hre h c)
    have hr : s₀.rm.ledger.Routable id :=
      ha.routable (flow_selectInstanceForRequest (h := .free) (c := []) hsel).2
    have hn : s₁.now = s.now := congrArg Flow.now (hs₁ .free c)
    have hact := hv.act (.spawnStart t k (core d) id rfl ha.role hr)
    rw [size, flow_length, ← ha.length] at hact
    simp only [now_addRequest, now_alloc, now_scheduleStart]
    have hs : ∀ h c, ((((s₁.alloc ((newDownstreamRequest s d).setText "instance_id"
        id)).addRequest s.heap.length).scheduleStart s₁.now s.heap.length id).flow h c) =
        (((s.flow h c).addJob ((core d).job s.now .pending .queued (some id))).register
          s.heap.length).issue s.now (.requestStart s.heap.length id) := by
      intro h c
      rw [flow_scheduleStart, flow_addRequest, flow_alloc, hs₁,
        setJob_register_addJob, hn, Request.setText_instance, newDownstreamRequest_toJob]
      rfl
    rw [ha.timeoutEvents] at hact
    split_ifs with hp
    · rw [if_pos hp, ha.now] at hact
      rw [flow_scheduleAt, hs, ha.flow, hn, ha.now]
      exact hact
    · rw [if_neg hp, issueAll_nil] at hact
      rw [hs, ha.flow, ha.now]
      exact hact

theorem via_execDownstreamSpawn (hk : role k = .spawn (core d))
    (hm : d.timeoutMs = (s₀.flow (.event t k) []).timeoutFor env (core d) k)
    (hs : ∀ h c, s.flow h c = (s₀.flow h c).arrive k) (hv : Via env f₀ (s₀.flow (.event t k) c)) :
    Via env f₀ ((execDownstreamSpawn env s d).flow .free c) := by
  unfold execDownstreamSpawn
  split
  · rw [flow_observe, hs]
    exact hv.act (.spawnNone t k (core d) d rfl hk rfl)
  · have hjob : (s₀.req d.parent).toJob = (s.req d.parent).toJob := by
      rw [← flow_job (h := .free) (c := []), ← flow_job (h := .free) (c := []), hs]
      rfl
    have hl : s.heap.length = s₀.heap.length := by
      have hj := congrArg (fun f : Flow => f.jobs.length) (hs .free [])
      simpa using hj
    have he : spawnEdge env s d = (s₀.flow (.event t k) []).edgeFor env (core d) := by
      rw [edgeFor, job_flow, hjob]
      rfl
    have ha : Attempting env t k d s₀ (s.observe (.attempted s.heap.length d.edge d.timeoutMs
        (spawnEdge env s d).failureRate (spawnEdge env s d).isRetryable)) := by
      refine ⟨hk, hm, fun h c => ?_⟩
      rw [flow_observe, hs, attempt, ← hm, ← he, size, flow_length, hl]
    simp only
    split
    · exact via_spawnDependencyFailure (ha.congr fun h c => flow_drawDependencyFailure d _) hv
    · exact via_spawnAttempt (ha.congr fun h c => flow_drawDependencyFailure d _) hv

/-! ### Edges -/

/-- The part of an edge that its child inherits as a job. -/
def EdgeCall.core (e : EdgeCall) : SpawnCore :=
  Protocol.core (e.spawn e.caller)

theorem flow_scheduleDownstreamCallEvent (env : Env) (s : State) (e : EdgeCall) (t : Time) :
    ∃ t' d, core d = { e.core with retryAttempt := 0 } ∧ d.timeoutMs = e.target.call.timeoutMs ∧
      t ≤ t' ∧ ∀ h c, (scheduleDownstreamCallEvent env s e t).flow h c =
        (s.flow h c).issue t' (.downstreamCall d) := by
  have hs : ∀ h c, (sampleDelayMs env s e.target.call.callLatencyMs).2.flow h c = s.flow h c :=
    fun h c => flow_sampleDelayMs _
  have hp : 0 ≤ (sampleDelayMs env s e.target.call.callLatencyMs).1 := sampleDelayMs_nonneg _
  generalize hd : sampleDelayMs env s e.target.call.callLatencyMs = res at hs hp
  refine ⟨t + msToDuration res.1, { e.spawn (resolveCallerTopologyForSpawn res.2.rm
    (res.2.req e.parent) {}) with retryAttempt := 0 }, rfl, rfl,
    le_add_of_nonneg_right (msToDuration_nonneg hp), fun h c => ?_⟩
  simp only [scheduleDownstreamCallEvent, hd, flow_scheduleAt, hs]

/-- What becomes of an edge at a time once the caller's CPU work for it is over, and when the caller
is done with it. -/
inductive EdgeResult (env : Env) (s : State) (e : EdgeCall) (t : Time) : Time × State → Prop
  | publish (ack : Time) (s' : State) (k : EventKind)
      (hb : usesAsyncBroker env.scenario e.target = true)
      (hk : role k = .publish e.parent e.nextTD e.nextAD) (ht : t ≤ ack)
      (hs : ∀ h c, s'.flow h c = (s.flow h c).issue ack k) : EdgeResult env s e t (ack, s')
  | spawn (hr : e.fromRetry = true) : EdgeResult env s e t (t, execRetrySpawnImmediate env s e)
  | call (t' : Time) (s' : State) (d : SpawnData)
      (hb : usesAsyncBroker env.scenario e.target = false) (hr : e.fromRetry = false)
      (hd : core d = { e.core with retryAttempt := 0 })
      (hm : d.timeoutMs = e.target.call.timeoutMs) (ht : t ≤ t')
      (hs : ∀ h c, s'.flow h c = (s.flow h c).issue t' (.downstreamCall d)) :
      EdgeResult env s e t (t, s')

/-- A publish goes out after its delivery latency. -/
theorem EdgeResult.delayed {e : EdgeCall} {x : ℚ × State} {k : PublishData → EventKind}
    (hb : usesAsyncBroker env.scenario e.target = true)
    (hk : ∀ d, role (k d) = .publish d.parent d.traceDepth d.asyncDepth)
    (hs : ∀ h c, x.2.flow h c = s.flow h c) (hx : 0 ≤ x.1) :
    EdgeResult env s e t (t + msToDuration x.1,
      x.2.scheduleAt (t + msToDuration x.1) (k (e.publish x.2 x.1))) :=
  .publish _ _ _ hb (hk _) (le_add_of_nonneg_right (msToDuration_nonneg hx)) fun h c => by
    rw [flow_scheduleAt, hs]

theorem dispatchEdge_cases (env : Env) (s : State) (e : EdgeCall) (t : Time) (ms : Option ℚ)
    (hms : ∀ x, ms = some x → 0 ≤ x) : EdgeResult env s e t (dispatchEdge env s e t ms) := by
  unfold dispatchEdge
  split
  · rename_i hb
    have hb : usesAsyncBroker env.scenario e.target = true := by simp [usesAsyncBroker, hb]
    cases ms with
    | some ms => exact .delayed (x := (ms, s)) hb (fun _ => rfl) (fun _ _ => rfl) (hms ms rfl)
    | none =>
      exact .delayed (x := sampleTopicDeliveryMs env s e.target.serviceID) hb (fun _ => rfl)
        (fun _ _ => flow_sampleDelayMs _) (sampleDelayMs_nonneg _)
  rename_i hto
  split
  · rename_i hb
    have hb : usesAsyncBroker env.scenario e.target = true := by simp [usesAsyncBroker, hb]
    cases ms with
    | some ms => exact .delayed (x := (ms, s)) hb (fun _ => rfl) (fun _ _ => rfl) (hms ms rfl)
    | none =>
      exact .delayed (x := sampleQueueDeliveryMs env s e.target.serviceID) hb (fun _ => rfl)
        (fun _ _ => flow_sampleDelayMs _) (sampleDelayMs_nonneg _)
  rename_i hq
  split_ifs with hr
  · exact .spawn hr
  · obtain ⟨t', d, hd, hm, ht, hs⟩ := flow_scheduleDownstreamCallEvent env s e t
    exact .call t' _ d (by simp [usesAsyncBroker, hto, hq]) (by simpa using hr) hd hm ht hs

theorem reserveCallerOverhead_eq_some {e : EdgeCall} {id : String} {overhead : ℚ}
    {start finish : Time}
    (hs : reserveCallerOverhead env s e t = some (((id, overhead), (start, finish)), s')) :
    (∀ h c, s'.flow h c = s.flow h c) ∧ s.rm.ledger.Has id ∧ t ≤ start ∧ start ≤ finish := by
  unfold reserveCallerOverhead at hs
  simp only at hs
  split at hs
  · cases hs
  · obtain ⟨⟨_, _⟩, hrm, heq⟩ := Option.map_eq_some_iff.1 hs
    cases heq
    obtain ⟨hl, hh⟩ := ledger_reserveCPUWork hrm
    exact ⟨fun h c => flow_rm hl, hh, reserveCPUWork_span hrm⟩

@[simp] theorem flow_sampleEdgeDeliveryMs (rc : ResolvedCall) :
    (sampleEdgeDeliveryMs env s rc).2.flow h c = s.flow h c := by
  unfold sampleEdgeDeliveryMs
  split
  · exact flow_sampleDelayMs _
  · split
    · exact flow_sampleDelayMs _
    · rfl

theorem sampleEdgeDeliveryMs_nonneg {rc : ResolvedCall} {ms : ℚ}
    (h : (sampleEdgeDeliveryMs env s rc).1 = some ms) : 0 ≤ ms := by
  unfold sampleEdgeDeliveryMs at h
  split at h
  · cases h
    exact sampleDelayMs_nonneg _
  · split at h
    · cases h
      exact sampleDelayMs_nonneg _
    · cases h

/-- What becomes of an edge at a time: it first costs the caller CPU time, or it is carried on. -/
inductive EdgePlan (env : Env) (s : State) (e : EdgeCall) (t : Time) : Time × State → Prop
  | overhead (t' : Time) (s' : State) (o : OverheadData) (hd : core o.spawn = e.core)
      (hr : o.fromRetry = e.fromRetry) (ho : o.Sound) (ht : t ≤ o.reservedCPUStart)
      (hi : s.rm.ledger.Has o.instanceID) (ht' : t ≤ t')
      (hs : ∀ h c, s'.flow h c = (s.flow h c).issueAll o.events) : EdgePlan env s e t (t', s')
  | dispatched (res : Time × State) (he : EdgeResult env s e t res) : EdgePlan env s e t res

theorem scheduleDownstream_cases (env : Env) (s : State) (e : EdgeCall) (t : Time) :
    EdgePlan env s e t (scheduleDownstreamWithCallerOverhead env s e t) := by
  unfold scheduleDownstreamWithCallerOverhead
  split
  · exact .dispatched _ (dispatchEdge_cases env s e t none (by simp))
  · rename_i id overhead start finish s₁ hr
    obtain ⟨hs₁, hi, hst, hf⟩ := reserveCallerOverhead_eq_some hr
    have hs : ∀ h c, (sampleEdgeDeliveryMs env s₁ e.target).2.flow h c = s.flow h c := fun h c =>
      (flow_sampleEdgeDeliveryMs _).trans (hs₁ h c)
    have hp : ∀ ms, (sampleEdgeDeliveryMs env s₁ e.target).1 = some ms → 0 ≤ ms :=
      fun ms => sampleEdgeDeliveryMs_nonneg
    generalize sampleEdgeDeliveryMs env s₁ e.target = res at hs hp ⊢
    obtain ⟨delivery, s₂⟩ := res
    refine .overhead _ _ {
      spawn := e.spawn (resolveCallerTopologyForSpawn s₁.rm (s₁.req e.parent) e.caller)
      instanceID := id, cpuMs := overhead, callerService := (s₂.req e.parent).serviceName
      callerEndpoint := (s₂.req e.parent).endpoint, fromRetry := e.fromRetry
      reservedCPUStart := start, reservedCPUEnd := finish, deliveryMs := delivery } rfl rfl
      ⟨hf, hp⟩ hst hi ?_ fun h c => ?_
    · refine (hst.trans hf).trans (le_add_of_nonneg_right ?_)
      cases delivery with
      | none => exact le_rfl
      | some ms => exact msToDuration_nonneg (hp ms rfl)
    · simp only [flow_scheduleAt, hs]
      rfl

/-! ### Broker edges of an accepted scenario -/

/-- In an accepted scenario every edge that publishes has a broker as its target. -/
theorem brokerService_of_edge (hv : validateScenario env.scenario = .ok ()) {svc path : String}
    {rc : ResolvedCall} (hrc : rc ∈ downstreamEdges env.scenario svc path)
    (hb : usesAsyncBroker env.scenario rc = true) : brokerService env rc.serviceID = true := by
  obtain ⟨ds, hds, he⟩ := List.mem_filterMap.1 hrc
  obtain ⟨_, hen, hds⟩ := List.mem_flatMap.1 hds
  unfold createEdge at he
  split at he
  · cases he
  rename_i svc' _ hp
  split at he
  · cases he
  cases he
  have hki : ∀ kind, kind = "queue" ∨ kind = "topic" → normWord ds.kind = kind →
      brokerService env svc' = true := by
    intro kind hk hds'
    obtain ⟨svc, hsv, hm⟩ := List.mem_flatMap.1 (List.mem_of_mem_filter hen)
    obtain ⟨ep, hep, rfl⟩ := List.mem_map.1 hm
    obtain ⟨_, _, hp₁, -, -, ht⟩ := (accepted_of_valid hv).downstream_call hsv hep hds
    replace ht := ht kind hk hds'
    obtain ⟨rfl, rfl⟩ := Prod.mk.inj
      (Except.ok.inj (hp.symm.trans (parseDownstreamTarget_of_valid hp₁)))
    unfold brokerService
    cases hs : env.scenario.service? svc' with
    | none => rcases hk with rfl | rfl <;> simp [hs] at ht
    | some =>
      rw [hs] at ht
      rcases hk with rfl | rfl <;> simp_all
  simp only [usesAsyncBroker, usesQueueBroker, usesTopicBroker, edgeHasKind, Bool.or_eq_true,
    beq_iff_eq] at hb
  rcases hb with (hb | hb) | (hb | hb)
  · exact hki _ (.inl rfl) hb
  · unfold brokerService
    split at hb
    · simp_all
    · cases hb
  · exact hki _ (.inr rfl) hb
  · unfold brokerService
    split at hb
    · simp_all
    · cases hb

/-- A spawn over an edge that publishes has a broker as its target. -/
theorem brokerService_of_spawnEdge (hv : validateScenario env.scenario = .ok ())
    (hb : usesAsyncBroker env.scenario ⟨d.serviceID, d.endpointPath, spawnEdge env s d⟩ = true) :
    brokerService env d.serviceID = true := by
  unfold spawnEdge resolveDownstreamCallSpec at hb
  simp only at hb
  generalize hf : List.find? _ _ = found at hb
  cases found with
  | none =>
    have hw : normWord "" = "" := by decide
    simp only [usesAsyncBroker, usesQueueBroker, usesTopicBroker, edgeHasKind, Option.map_none,
      Option.getD_none, hw, String.reduceBEq, Bool.false_or] at hb
    unfold brokerService
    cases hsvc : env.scenario.service? d.serviceID with
    | none => simp [hsvc] at hb
    | some => simpa [hsvc] using hb
  | some =>
    have hm := List.mem_of_find?_eq_some hf
    have ht := List.find?_some hf
    simp only [Bool.and_eq_true, beq_iff_eq] at ht
    rw [← ht.1]
    refine brokerService_of_edge hv hm ?_
    rw [← ht.1, ← ht.2] at hb
    exact hb

/-! ### Handlers -/

theorem flow_noteSimTime :
    ({ s with rm := s.rm.noteSimTime s.now } : State).flow h c = s.flow h c :=
  flow_rm (ledger_noteSimTime _)

theorem via_handleDownstreamCall (hv : Via env f₀ (s.flow (.event t (.downstreamCall d)) c)) :
    Via env f₀ ((handleDownstreamCall env s d).flow .free c) :=
  via_execDownstreamSpawn rfl rfl (fun _ _ => flow_noteSimTime) hv

/-- An edge of a spawn event: only a first attempt becomes a call event. -/
theorem via_edgeResult {e : EdgeCall} {res : Time × State} (t' : Time) (hk : role k = .spawn e.core)
    (ht : s₀.now ≤ t')
    (hb : usesAsyncBroker env.scenario e.target = true → brokerService env e.core.serviceID = true)
    (hm : e.target.call.timeoutMs = (s₀.flow (.event t k) []).timeoutFor env e.core k)
    (hs : ∀ h c, s.flow h c = (s₀.flow h c).arrive k)
    (hc : ∀ t'' d, e.fromRetry = false → core d = { e.core with retryAttempt := 0 } →
      d.timeoutMs = e.target.call.timeoutMs → s₀.now ≤ t'' →
        Via env f₀ (((s₀.flow .free c).arrive k).issue t'' (.downstreamCall d)))
    (he : EdgeResult env s e t' res) (hv : Via env f₀ (s₀.flow (.event t k) c)) :
    Via env f₀ (res.2.flow .free c) := by
  cases he with
  | publish ack _ k' hbr hk' hack hs' =>
    rw [hs', hs]
    exact hv.act (.spawnPublish t ack k k' e.core rfl hk (hb hbr) hk' (ht.trans hack))
  | spawn =>
    -- the caller's topology plays no part in the core
    unfold execRetrySpawnImmediate
    generalize resolveCallerTopologyForSpawn _ _ _ = caller
    exact via_execDownstreamSpawn hk hm hs hv
  | call t'' _ d _ hr hd hm' ht' hs' =>
    rw [hs', hs]
    exact hc t'' d hr hd hm' (ht.trans ht')

theorem via_handleDownstreamRetry (hv : Via env f₀ (s.flow (.event t (.downstreamRetry d)) c)) :
    Via env f₀ ((handleDownstreamRetry env s d).flow .free c) := by
  unfold handleDownstreamRetry
  simp only
  set s₁ : State := { s with rm := s.rm.noteSimTime s.now } with hs₁
  have hs : ∀ h c, s₁.flow h c = s.flow h c := fun _ _ => flow_noteSimTime
  have hl : s₁.rm.ledger = s.rm.ledger := ledger_noteSimTime _
  set e : EdgeCall := {
    target := ⟨d.serviceID, d.endpointPath, spawnEdge env s₁ d⟩, parent := d.parent
    nextTD := d.traceDepth, nextAD := d.asyncDepth, isAsync := d.isAsync, fromRetry := true
    retryAttempt := d.retryAttempt, caller := d.caller, call := d.call
    onBehalf := d.onBehalf, edge := d.edge } with he
  have hp := scheduleDownstream_cases env s₁ e s₁.now
  generalize scheduleDownstreamWithCallerOverhead env s₁ e s₁.now = res at hp
  cases hp with
  | overhead _ _ o hd hr ho ht hi _ hs' =>
    rw [hs', hs]
    rw [hl] at hi
    exact hv.act (.retryOverhead t d o rfl hd hr ho ht hi)
  | dispatched _ hres =>
    have hb : usesAsyncBroker env.scenario e.target = true → brokerService env d.serviceID = true :=
      brokerService_of_spawnEdge (s := s₁) (d := d) hv.reached.valid
    have hn : s.now ≤ s₁.now := le_rfl
    refine via_edgeResult s₁.now rfl hn hb ?_ hs (fun _ _ hf => by cases hf) hres hv
    simp only [timeoutFor, edgeFor, flow_job]
    rfl

theorem via_handleDownstreamCallerOverheadEnd {o : OverheadData}
    (hv : Via env f₀ (s.flow (.event t (.callerOverheadEnd o)) c)) :
    Via env f₀ ((handleDownstreamCallerOverheadEnd env s o).flow .free c) := by
  unfold handleDownstreamCallerOverheadEnd
  set s₁ : State := { s with rm := (s.rm.noteSimTime s.now).releaseCPU o.instanceID s.now } with hs₁
  have hc : (s.rm.noteSimTime s.now).ledger.Coherent := by
    rw [ledger_noteSimTime]
    exact hv.coherent
  have hs : ∀ h c, s₁.flow h c = (s.flow h c).arrive (.callerOverheadEnd o) := by
    intro h c
    rw [hs₁, flow_setLedger, ledger_releaseCPU hc, ledger_noteSimTime]
    rfl
  have hso : o.Sound := (hv.reached.clock.overhead _ _ o _ (.inl rfl) rfl).1
  have hres := dispatchEdge_cases env s₁ (o.edge env s₁) s₁.now o.deliveryMs hso.delivery
  have hm : (o.edge env s₁).target.call.timeoutMs =
      (s.flow (.event t (.callerOverheadEnd o)) []).timeoutFor env (core o.spawn)
        (.callerOverheadEnd o) := by
    simp only [timeoutFor, edgeFor, flow_job]
    rfl
  have hb : usesAsyncBroker env.scenario (o.edge env s₁).target = true →
      brokerService env o.spawn.serviceID = true :=
    brokerService_of_spawnEdge (s := s₁) (d := o.spawn) hv.reached.valid
  have hn : s.now ≤ s₁.now := le_rfl
  refine via_edgeResult s₁.now rfl hn hb hm hs ?_ hres hv
  intro t' d hr hd hm' ht'
  exact hv.act (.overheadCall t t' o d rfl hr hd (hm'.trans hm) ht')

theorem via_handleDownstreamCallerOverheadStart {o : OverheadData}
    (hv : Via env f₀ (s.flow (.event t (.callerOverheadStart o)) c)) :
    Via env f₀ ((handleDownstreamCallerOverheadStart env s o).flow .free c) := by
  unfold handleDownstreamCallerOverheadStart
  simp only
  split
  · rename_i rm hrm
    obtain ⟨hl, hi⟩ := ledger_allocateCPU hrm
    rw [ledger_noteSimTime] at hl hi
    rw [flow_record_other rfl, flow_setLedger, hl]
    exact hv.act (.overheadBegin t o rfl hi)
  · rename_i hn
    have hi : ¬ s.rm.ledger.Has o.instanceID := by
      rw [← ledger_noteSimTime s.now]
      exact not_has_of_allocateCPU (by simpa using hv.coherent) hn
    set s₁ : State := { s with
      rm := (s.rm.noteSimTime s.now).rollbackCPUTailReservation o.instanceID o.reservedCPUStart
        o.reservedCPUEnd } with hs₁
    generalize hlbl : endpointErrorLabels (labelsForRequestMetrics (s₁.req o.spawn.parent)
      o.callerService o.callerEndpoint) "cpu_capacity" = lbl
    set s₂ := s₁.record .requestErrorCount 1 lbl none with hs₂
    have hfl : ∀ h c, s₂.flow h c = s.flow h c := by
      intro h c
      rw [hs₂, flow_record_other rfl, hs₁, flow_rm (by simp)]
    split
    · rename_i hr
      unfold maybeRetrySyncCallerOverheadFailure at hr
      split at hr
      · cases hr
      rename_i ha
      obtain ⟨_, hp, rfl⟩ := Option.map_eq_some_iff.1 hr
      obtain ⟨hli, hfo⟩ := retryPolicyFor_eq_some (s := s) hp
      rw [flow_observe, scheduleDownstreamRetryEvent, flow_scheduleAt, hfl]
      exact hv.act (.overheadRetry t _ o _ rfl hi (by simpa using ha) hli rfl fun hf => hfo hf _)
    · rw [← hfl] at hv
      refine via_propagateSyncPending ?_ hv
      have hl : s₂.rm.ledger = s.rm.ledger := congrArg Flow.ledger (hfl .free [])
      rwa [hl]

end SimCore.Simd
