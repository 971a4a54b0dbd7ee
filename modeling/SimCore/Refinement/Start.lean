import SimCore.Refinement.Broker

/-!
# Arrival and start of requests as actions

An arrival creates an ingress request that starts or is rejected. A start runs the request, defers
it, loses it, or fails it locally or for lack of resources.

## Main results

* `via_handleRequestArrival`, `via_handleRequestStart`, `via_handleDrainSweep`
-/

namespace SimCore.Simd

open Protocol Resource Config Interaction State Manager

variable {env : Env} {s s' s₁ : State} {h : Hand} {c : List ReqId} {f₀ : Flow} {r p : ReqId}
  {t : Time}

/-! ### Draining -/

/-- Nothing waits on an instance, so draining instances does not touch any request. -/
theorem drainTick_eq (hm : s.rm.ledger.Coherent) : drainTick s =
    { s with rm := ((s.rm.noteSimTime s.now).processDrainingInstances s.now).2 } := by
  have hm' : (s.rm.noteSimTime s.now).ledger.Placed := by
    rw [ledger_noteSimTime]
    exact hm.toPlaced
  simp [drainTick, dropped_processDrainingInstances hm']

theorem now_drainTick (hm : s.rm.ledger.Coherent) : (drainTick s).now = s.now := by
  rw [drainTick_eq hm]
  rfl

theorem via_drainTick {k : EventKind} (hv : Via env f₀ (s.flow (.event t k) c)) :
    Via env f₀ ((drainTick s).flow (.event t k) c) := by
  have hm : (s.rm.noteSimTime s.now).ledger.Coherent := by
    rw [ledger_noteSimTime]
    exact hv.coherent
  have hd := drained_processDrainingInstances hm s.now
  rw [ledger_noteSimTime] at hd
  rw [drainTick_eq hv.coherent, flow_setLedger]
  exact hv.act (.drain t k _ rfl hd)

theorem via_handleDrainSweep (hv : Via env f₀ (s.flow (.event t .drainSweep) c)) :
    Via env f₀ ((handleDrainSweep env s).flow .free c) := by
  have hd := via_drainTick hv
  unfold handleDrainSweep
  simp only
  split
  · rw [flow_scheduleAt]
    refine hd.act (.sweepAgain t _ rfl ?_)
    exact le_add_of_nonneg_right (by decide)
  · exact hd.act (.discard t _ rfl rfl)

/-! ### Arrival -/

theorem newIngressRequest_toJob (d : ArrivalData) (t : Time) : ∃ i, (newIngressRequest d t).toJob =
    { serviceName := d.serviceID, endpoint := d.endpointPath
      arrivalTime := t, instanceID := i } := by
  have hf : ∀ (l : List (String × String)) (q : Request), ∃ i,
      (l.foldl (fun q (kv : String × String) => q.setText kv.1 kv.2) q).toJob =
        { q.toJob with instanceID := i } := by
    intro l
    induction l with
    | nil => exact fun q => ⟨q.instanceID, rfl⟩
    | cons kv l ih =>
      intro q
      obtain ⟨i, hi⟩ := ih (q.setText kv.1 kv.2)
      refine ⟨i, ?_⟩
      rw [List.foldl_cons, hi]
      by_cases hk : kv.1 = "instance_id"
      · rw [hk, Request.setText_instance]
      · rw [Request.setText_toJob hk]
  obtain ⟨i, hi⟩ := hf d.metadata
    (((({ serviceName := d.serviceID, endpoint := d.endpointPath, arrivalTime := t } :
      Request).setTextIf "workload_from" d.source).setTextIf "workload_source_kind"
        d.sourceKind).setTextIf "workload_traffic_class" d.trafficClass)
  refine ⟨i, hi.trans ?_⟩
  rw [Request.setTextIf_toJob (by decide), Request.setTextIf_toJob (by decide),
    Request.setTextIf_toJob (by decide)]

theorem observedSample_ingress (value : ℚ) (t : Time) (svc ep : String) (subject : Option ReqId) :
    observedSample ⟨.requestCount, value, t, endpointLabelsWithOrigin svc ep originIngress,
      subject⟩ = true := by
  have ho := lookup_origin svc ep originIngress []
  rw [List.append_nil] at ho
  simp [observedSample, ho]

theorem sample_failure {f : Flow} {r : ReqId} (hp : (f.job r).parent = none) (lbl : Labels) :
    f.sample ⟨.ingressLogicalFailure, 1, f.now, lbl, some r⟩ = f.blame r lbl := by
  rw [Flow.blame, if_pos hp]
  rfl

theorem via_rejectArrival {d : ArrivalData} {x : Sample} {reason : String} {i : Option String}
    (hm : x.metric = .requestCount) (hl : observedSample x = true)
    (hs₁ : ∀ h c, s₁.flow h c = (((s.flow h c).addJob
      { serviceName := d.serviceID, endpoint := d.endpointPath, arrivalTime := s.now
        instanceID := i }).register s.heap.length).sample x)
    (hv : Via env f₀ (s.flow (.event t (.requestArrival d)) c)) :
    Via env f₀ ((rejectArrival s₁ s.heap.length d reason).flow .free c) := by
  set lbl := endpointErrorLabels
    (endpointLabelsWithOrigin d.serviceID d.endpointPath originIngress) reason with hlbl
  set j : Job := { serviceName := d.serviceID, endpoint := d.endpointPath, arrivalTime := s.now
                   instanceID := i, status := .failed } with hj
  have hf : ∀ h c, (s₁.update s.heap.length fun q => { q with status := .failed }).flow h c =
      (((s.flow h c).addJob j).register s.heap.length).sample x := by
    intro h c
    rw [flow_update (fun j => { j with status := .failed }) fun _ => rfl, hs₁]
    exact congrArg (Flow.sample · x) (setJob_register_addJob _ _)
  have ha := hv.act (.reject t d x lbl i rfl hm hl)
  rw [Flow.size, flow_length] at ha
  unfold rejectArrival
  rw [flow_observe, State.record, flow_recordAt, flow_record_other rfl, hf, now_record,
    now_update, show s₁.now = s.now from congrArg Flow.now (hs₁ .free [])]
  have hb := sample_failure (f := (((s.flow .free c).addJob j).register s.heap.length).sample x)
    (r := s.heap.length) (by simp [hj]) lbl
  exact (congrArg (Flow.note · (.rejected s.heap.length)) hb) ▸ ha

theorem via_handleRequestArrival {d : ArrivalData}
    (hv : Via env f₀ (s.flow (.event t (.requestArrival d)) c)) :
    Via env f₀ ((handleRequestArrival env s d).flow .free c) := by
  have hv := via_drainTick hv
  unfold handleRequestArrival
  simp only
  generalize drainTick s = s₀ at hv
  set s₁ := ((s₀.alloc (newIngressRequest d s₀.now)).addRequest s₀.heap.length).record .requestCount
    1 (endpointLabelsWithOrigin d.serviceID d.endpointPath originIngress) (some s₀.heap.length)
    with hs₁
  set x : Sample := ⟨.requestCount, 1, s₀.now,
    endpointLabelsWithOrigin d.serviceID d.endpointPath originIngress, some s₀.heap.length⟩
  have hl : observedSample x = true := observedSample_ingress ..
  obtain ⟨i, hi⟩ := newIngressRequest_toJob d s₀.now
  have hf : ∀ h c, s₁.flow h c = (((s₀.flow h c).addJob
      { serviceName := d.serviceID, endpoint := d.endpointPath, arrivalTime := s₀.now
        instanceID := i }).register s₀.heap.length).sample x := by
    intro h c
    rw [hs₁, State.record, flow_recordAt, flow_addRequest, flow_alloc, hi,
      now_addRequest, now_alloc]
  split
  · exact via_rejectArrival rfl hl hf hv
  · exact via_rejectArrival rfl hl hf hv
  split
  · exact via_rejectArrival rfl hl hf hv
  · rename_i id s₂ hs
    obtain ⟨-, hid⟩ := flow_selectInstanceForRequest (h := .free) (c := []) hs
    have hf₂ : ∀ h c, s₂.flow h c = s₁.flow h c := fun h c =>
      (flow_selectInstanceForRequest hs).1
    have hle : s₁.rm.ledger = s₀.rm.ledger := congrArg Flow.ledger (hf .free [])
    rw [hle] at hid
    have ha := hv.act (.accept t d x id rfl rfl hl hid)
    rw [Flow.size, flow_length] at ha
    rw [flow_scheduleAt,
      flow_update (fun j => { j with instanceID := some id, stage := .queued }) fun _ => rfl,
      hf₂, hf,
      show s₂.now = s₀.now from (congrArg Flow.now (hf₂ .free [])).trans
        (congrArg Flow.now (hf .free []))]
    have hq := setJob_register_addJob (s := s₀) (h := .free) (c := c)
      { serviceName := d.serviceID, endpoint := d.endpointPath, arrivalTime := s₀.now
        instanceID := i } fun j => { j with instanceID := some id, stage := .queued }
    exact (congrArg (fun f : Flow => (f.sample x).issue s₀.now (.requestStart s₀.heap.length id))
      hq) ▸ ha

/-! ### The work of a request -/

/-- The network latency and the memory of a request are not negative. -/
structure Work.Nonneg (w : Work) : Prop where
  net : 0 ≤ w.netLatencyMs
  memory : 0 ≤ w.memoryMB

namespace Work.Nonneg

variable {w : Work} (hw : w.Nonneg)

include hw

theorem dbLatencyWork (svc : Service) (ep : Endpoint) : (dbLatencyWork svc ep w).Nonneg := by
  obtain ⟨_, _⟩ := hw
  refine ⟨?_, ?_⟩
  · simp only [Simd.dbLatencyWork]
    split <;> positivity
  · simp only [Simd.dbLatencyWork]
    positivity

theorem kindWork (svc : Service) : (kindWork svc w).Nonneg := by
  have hn := hw.net
  unfold Simd.kindWork
  split
  · split
    · exact hw
    · exact ⟨by positivity, hw.memory⟩
  · split
    · exact ⟨by positivity, hw.memory⟩
    · split
      · exact ⟨by positivity, hw.memory⟩
      · exact hw

theorem saturate (svc : Service) (id : String) : (saturate s svc id w).Nonneg := by
  have hn := hw.net
  unfold Simd.saturate
  split
  · rename_i inst _ _ _
    split_ifs with hp
    · have hu : 0 ≤ inst.cpuUtilizationAt s.now := by
        unfold ServiceInstance.cpuUtilizationAt
        split
        · exact le_rfl
        · split
          · exact le_rfl
          · exact le_max_left _ _
      exact ⟨mul_nonneg hn (by positivity), hw.memory⟩
    · exact hw
  · exact hw

theorem sampleCache (svc : Service) : (sampleCache env s r svc w).1.Nonneg := by
  obtain ⟨hn, hmem⟩ := hw
  unfold Simd.sampleCache
  split
  · exact ⟨hn, hmem⟩
  · rename_i cache _
    simp only
    split
    · have hh : 0 ≤ (sampleLatencyMs env (s.float64 env).2 cache.hitLatencyMs).1 :=
        sampleLatencyMs_nonneg _
      exact ⟨mul_nonneg hh (by norm_num), mul_nonneg hmem (by norm_num)⟩
    · have hm : 0 ≤ (sampleLatencyMs env (s.float64 env).2 cache.missLatencyMs).1 :=
        sampleLatencyMs_nonneg _
      exact ⟨add_nonneg hn (div_nonneg hm (by norm_num)), hmem⟩

end Work.Nonneg

theorem resolveServiceExecutionProfile_nonneg (svc : Service) (ep : Endpoint) :
    (resolveServiceExecutionProfile env s svc ep).1.Nonneg := by
  have hw : Work.Nonneg ⟨(sampleLatencyMs env s ⟨ep.meanCPUMs, ep.cpuSigmaMs⟩).1,
      (sampleLatencyMs env (sampleLatencyMs env s ⟨ep.meanCPUMs, ep.cpuSigmaMs⟩).2
        ep.netLatencyMs).1, if ep.defaultMemoryMB ≤ 0 then 10 else ep.defaultMemoryMB⟩ := by
    refine ⟨sampleLatencyMs_nonneg _, ?_⟩
    split_ifs with hp
    · norm_num
    · exact (not_le.1 hp).le
  unfold resolveServiceExecutionProfile
  simp only
  refine Work.Nonneg.kindWork ?_ svc
  split
  · exact hw.dbLatencyWork svc ep
  · exact hw

theorem applyTopologyNetworkPenaltyMs_nonneg (r : ReqId) (id : String) :
    0 ≤ (applyTopologyNetworkPenaltyMs env s r id).1 := by
  unfold applyTopologyNetworkPenaltyMs
  simp only
  split
  · exact le_rfl
  · split
    · exact le_rfl
    · split
      · exact le_rfl
      · exact sampleLatencyMs_nonneg _

/-! ### Start -/

theorem setJob_setJob (f : Flow) (r : ReqId) (g g' : Job → Job) :
    (f.setJob r g).setJob r g' = f.setJob r (g' ∘ g) := by
  simp [Flow.setJob, List.modify_modify_eq]

theorem setJob_congr {f : Flow} {g g' : Job → Job} (hg : g (f.job r) = g' (f.job r)) :
    f.setJob r g = f.setJob r g' := by
  have hjo : f.jobs.modify r g = f.jobs.modify r g' := by
    refine List.ext_getElem? fun i => ?_
    rw [List.getElem?_modify, List.getElem?_modify]
    by_cases hi : r = i
    · subst hi
      cases hj : f.jobs[r]? with
      | none => rfl
      | some j =>
        have hjob : f.job r = j := by simp [jobAt, hj]
        simpa [hjob] using hg
    · simp [hi]
  rw [Flow.setJob, Flow.setJob, hjo]

@[simp] theorem flow_resolveServiceExecutionProfile (svc : Service) (ep : Endpoint) :
    (resolveServiceExecutionProfile env s svc ep).2.flow h c = s.flow h c := rfl

theorem flow_assignInstance (id : String) : (assignInstance s r id).flow h c =
    (s.flow h c).setJob r fun j =>
      { j with instanceID := if id = "" then j.instanceID else some id } := by
  have hs : (s.update r fun q => q.setTextIf "instance_id" id).flow h c =
      (s.flow h c).setJob r fun j =>
        { j with instanceID := if id = "" then j.instanceID else some id } := by
    refine flow_update _ fun q => ?_
    unfold Request.setTextIf
    split
    · rfl
    · exact Request.setText_instance q id
  unfold assignInstance
  simp only
  split
  · exact hs
  · split
    · exact hs
    · rw [flow_update_same fun q => ?_, hs]
      rw [Request.setTextIf_toJob (by decide), Request.setText_toJob (by decide)]

theorem flow_sampleCache (env : Env) (s : State) (r : ReqId) (svc : Service) (w : Work) :
    ∃ cache : Option Bool, ∀ h c, (sampleCache env s r svc w).2.flow h c =
      (s.flow h c).setJob r fun j =>
        { j with cacheHit := j.cacheHit || cache == some true
                 cacheMiss := j.cacheMiss || cache == some false } := by
  unfold sampleCache
  split
  · exact ⟨none, fun h c => (setJob_same fun j => by simp).symm⟩
  · simp only
    split
    · refine ⟨some true, fun h c => ?_⟩
      rw [flow_update (fun j => { j with cacheHit := true }) fun _ => rfl,
        flow_sampleLatencyMs, flow_float64]
      simp
    · refine ⟨some false, fun h c => ?_⟩
      rw [flow_update (fun j => { j with cacheMiss := true }) fun _ => rfl,
        flow_sampleLatencyMs, flow_float64]
      simp

@[simp] theorem flow_drawLocalFailure (svc : Service) (ep : Endpoint) :
    (drawLocalFailure env s svc ep).2.flow h c = s.flow h c := by
  unfold drawLocalFailure
  simp only
  split <;> rfl

theorem flow_scheduleComplete (t : Time) (r : ReqId) : (s.scheduleComplete t r).flow h c =
      ((s.flow h c).setJob r fun j => { j with stage := .running }).issue t
        (.requestComplete r) := by
  rw [State.scheduleComplete, flow_scheduleAt]
  congr 1
  exact flow_update _ fun _ => rfl

theorem flow_scheduleCompletion (ep : Endpoint) {cpuStart finish : Time} (hf : cpuStart ≤ finish) :
    ∃ t', cpuStart ≤ t' ∧ (scheduleCompletion s r ep cpuStart finish).flow h c =
      ((s.flow h c).setJob r fun j => { j with stage := .running }).issue t'
        (.requestComplete r) := by
  unfold scheduleCompletion
  simp only
  split_ifs with hp
  · refine ⟨cpuStart + wholeMsToDuration ep.timeoutMs,
      le_add_of_nonneg_right (wholeMsToDuration_nonneg hp.1.le), ?_⟩
    rw [flow_scheduleComplete, flow_update_same fun _ => by rfl]
  · exact ⟨finish, hf, flow_scheduleComplete finish r⟩

/-- The datastore work of a request comes after its CPU work, on an instance that exists. -/
theorem reserveDatastore_of_has (env : Env) (r : ReqId) {id : String} (hi : s.rm.ledger.Has id)
    (svc : Service) (ep : Endpoint) (cpuEnd : Time) : ∃ ioEnd s', cpuEnd ≤ ioEnd ∧
      reserveDatastore env s r svc ep id cpuEnd = some (ioEnd, s') ∧
      ∀ h c, s'.flow h c = s.flow h c := by
  unfold reserveDatastore
  split
  · exact ⟨cpuEnd, s, le_rfl, rfl, fun _ _ => rfl⟩
  have hio : ∀ h c, (sampleEndpointIOWorkloadMs env s ep).2.flow h c = s.flow h c := by
    intro h c
    unfold sampleEndpointIOWorkloadMs
    split <;> rfl
  have hl : (sampleEndpointIOWorkloadMs env s ep).2.rm.ledger = s.rm.ledger :=
    congrArg Flow.ledger (hio .free [])
  generalize sampleEndpointIOWorkloadMs env s ep = res at hio hl
  simp only
  split
  · rename_i hn
    rw [← hl, has_iff] at hi
    rw [reserveDBWork, Option.map_eq_none_iff] at hn
    simp [hn] at hi
  rename_i ioEnd _ rm hrm
  have hend := le_reserveDBWork_end hrm
  have hrm : ∀ h c, ({ res.2 with rm := rm } : State).flow h c = s.flow h c := fun h c =>
    (flow_rm (ledger_reserveDBWork hrm)).trans (hio h c)
  have hwa : ∀ (s₁ : State) (b : Prop) [Decidable b], (∀ h c, s₁.flow h c = s.flow h c) →
      ∀ h c, (if b then s₁.update r fun q => { q with dbReserved := true } else s₁).flow h c =
        s.flow h c := by
    intro s₁ b _ hs₁ h c
    rw [flow_ite, flow_update_same fun _ => by rfl, ite_self, hs₁]
  split
  · refine ⟨ioEnd, _, hend, rfl, hwa _ _ fun h c => ?_⟩
    rw [flow_ite, flow_record_other rfl, ite_self, hrm]
  · refine ⟨ioEnd, _, hend, rfl, fun h c => ?_⟩
    refine hwa _ _ (fun h c => ?_) h c
    rw [flow_ite, flow_record_other rfl, ite_self, hrm]

/-- A start that failed for lack of resources is retried, or the caller learns of it. -/
theorem via_failStart {reason : String}
    (hv : ∀ lbl, Via env f₀ ((((s₁.update r fun q => { q with status := .failed }).flow
      (.failed r .resources) c).blame r lbl).note (.breaker r false))) :
    Via env f₀ ((failStart env s₁ r reason).flow .free c) := by
  set s₂ := s₁.update r fun q => { q with status := .failed } with hs₂
  have hf : Via env f₀ (((recordFailureSamples s₂ r reason).observe
      (.breaker r false)).flow (.failed r .resources) c) := by
    rw [flow_observe, flow_recordFailureSamples]
    exact hv _
  unfold failStart
  simp only
  split
  · rename_i hr
    exact via_retry hr hf
  · exact via_propagateSyncChildFailure hf

section Start

variable {id : String} {cache : Option Bool}
  (hv : Via env f₀ (s.flow (.event t (.requestStart r id)) c))
include hv

/-- A request that has drawn its work fails locally. -/
theorem via_failLocally (hfl : ∀ h c, s₁.flow h c = (s.flow h c).setJob r fun j =>
      { j.drawn id cache with stage := .idle }) :
    Via env f₀ ((failLocally env s₁ r).flow .free c) := by
  set s₂ := s₁.update r fun q => { q with status := .failed } with hs₂
  have hf : Via env f₀ (s₂.flow (.failed r .localFailure) c) := by
    rw [hs₂, flow_update (fun j => { j with status := .failed }) fun _ => rfl, hfl, setJob_setJob]
    exact hv.act (.startFail t r id cache rfl)
  unfold failLocally
  simp only
  split
  · rename_i hr
    exact via_retry hr hf
  · exact via_finalizeRequestFailure (.inl rfl) (hf.act (.giveUp r .localFailure rfl (by decide)))

/-- A request with a CPU interval that begins now runs, or is refused for lack of memory. -/
theorem via_runRequest {svc : Service} {ep : Endpoint} {w : Work} {cpuStart cpuEnd : Time}
    {fresh : Option Reservation} (hw : w.Nonneg)
    (ha : (s.flow (.event t (.requestStart r id)) c).Admits r w.cpuTimeMs fresh)
    (hs : cpuStart = s.now) (hend : cpuStart ≤ cpuEnd)
    (hf : ∀ h c, s₁.flow h c = (s.flow h c).setJob r fun j =>
      { j.begun id cache fresh with stage := .idle }) :
    Via env f₀ ((runRequest env s₁ r svc ep id w cpuStart cpuEnd).flow .free c) := by
  unfold runRequest
  simp only
  set s₂ := ((applyTopologyNetworkPenaltyMs env s₁ r id).2.update r fun q =>
    { q with status := .processing, startTime := some cpuStart }) with hs₂
  set s₃ := s₂.record .queueWait _ _ (some r) with hs₃
  have hf₃ : ∀ h c, s₃.flow h c = (s.flow h c).setJob r fun j =>
      { j.begun id cache fresh with stage := .idle, status := .processing } := by
    intro h c
    rw [hs₃, flow_record_other rfl, hs₂,
      flow_update (fun j => { j with status := .processing }) fun _ => rfl,
      flow_applyTopologyNetworkPenaltyMs, hf, setJob_setJob]
    rfl
  have hl : s₃.rm.ledger = s.rm.ledger := congrArg Flow.ledger (hf₃ .free [])
  split
  · refine via_failStart fun lbl => ?_
    rw [flow_update (fun j => { j with status := .failed }) fun _ => rfl,
      flow_rm (by simp), hf₃, setJob_setJob]
    exact hv.act (.startRefuse t r id cache fresh lbl rfl)
  rename_i rm hm
  obtain ⟨hm, hi⟩ := ledger_allocateMemory hm
  rw [hl] at hm hi
  have hh : rm.ledger.Has id := by
    rw [hm]
    exact hi.modify fun _ => rfl
  split
  · rename_i hn
    have hcoh : rm.ledger.Coherent := by
      rw [hm]
      exact hv.coherent.modify fun _ => ⟨⟨rfl, rfl, rfl, rfl⟩, rfl⟩
    exact absurd hh (not_has_of_allocateCPU hcoh hn)
  rename_i rm' hc
  obtain ⟨hc, -⟩ := ledger_allocateCPU hc
  rw [hm] at hc
  rw [Ledger.modify_modify (g := Account.take w.memoryMB) fun _ => rfl] at hc
  set s₃' := ({ s₃ with rm := rm' } : State).update r fun q =>
    { q with allocatedCPUMs := some w.cpuTimeMs, allocatedMemoryMB := some w.memoryMB } with hs₃'
  set s₄ := recordInstanceAndHostGauges s₃' (s₂.req r).serviceName id s₃'.now with hs₄
  have hf₄ : ∀ h c, s₄.flow h c = ((s.flow h c).setJob r fun j =>
      { j.begun id cache fresh with stage := .idle, status := .processing
                                    allocatedCPUMs := some w.cpuTimeMs
                                    allocatedMemoryMB := some w.memoryMB }).book id fun a =>
        (a.take w.memoryMB).enter := by
    intro h c
    rw [hs₄, flow_recordInstanceAndHostGauges, hs₃', flow_update (fun j =>
      { j with allocatedCPUMs := some w.cpuTimeMs, allocatedMemoryMB := some w.memoryMB })
        fun _ => rfl, flow_setLedger, hf₃, hc]
    exact congrArg (fun f : Flow => f.book id fun a => (a.take w.memoryMB).enter)
      (setJob_setJob (s.flow h c) r _ _)
  have hh₄ : s₄.rm.ledger.Has id := by
    have hl₄ : s₄.rm.ledger = s.rm.ledger.modify id fun a => (a.take w.memoryMB).enter :=
      congrArg Flow.ledger (hf₄ .free [])
    rw [hl₄]
    exact hi.modify fun _ => rfl
  obtain ⟨_, s₅, hio, hdb, hf₅⟩ := reserveDatastore_of_has env r hh₄ svc ep cpuEnd
  have hnet : 0 ≤ msToDuration (w.netLatencyMs + (applyTopologyNetworkPenaltyMs env s₁ r id).1) :=
    msToDuration_nonneg (add_nonneg hw.net (applyTopologyNetworkPenaltyMs_nonneg r id))
  obtain ⟨t', ht', hf₆⟩ := flow_scheduleCompletion (s := s₅) (h := .free) (c := c) (r := r) ep
    (le_add_of_le_of_nonneg (hend.trans hio) hnet)
  rw [hdb]
  rw [hf₆, hf₅, hf₄]
  rw [hs] at ht'
  have hact := hv.act (.startRun t t' r id cache w.cpuTimeMs w.memoryMB fresh rfl hi ha hw.memory
    ht')
  have hj := setJob_setJob (s.flow .free c) r (fun j =>
      { j.begun id cache fresh with stage := .idle, status := .processing
                                    allocatedCPUMs := some w.cpuTimeMs
                                    allocatedMemoryMB := some w.memoryMB })
    fun j => { j with stage := .running }
  exact (congrArg (fun f : Flow => (f.book id fun a => (a.take w.memoryMB).enter).issue t'
    (.requestComplete r)) hj) ▸ hact

/-- A request that has drawn its work uses the CPU interval that deferred it, or reserves one. -/
theorem via_admitCPU {svc : Service} {ep : Endpoint} {w : Work} (hw : w.Nonneg)
    (hf : ∀ h c, s₁.flow h c = (s.flow h c).setJob r fun j =>
      { j.drawn id cache with stage := .idle }) :
    Via env f₀ ((admitCPU env s₁ r svc ep id w).flow .free c) := by
  have hlt : r < s.heap.length := by
    have hfit : (s.flow (.event t (.requestStart r id)) c).Fits env (.start r) :=
      hv.reached.shape.fits_hand rfl
    simpa [Flow.Fits] using hfit
  have hc := hv.reached.clock
  have hnow : s.now = startTime (s.req r).toJob := by
    have hh := hc.hand t _ rfl
    have hs := hc.start t r id (.inl rfl)
    rw [job_flow] at hs
    exact hh.symm.trans hs
  have hj : (s₁.req r).toJob = { (s.req r).toJob.drawn id cache with stage := .idle } := by
    rw [← flow_job (h := .free) (c := []), hf]
    simp [hlt]
  have hle : s₁.rm.ledger = s.rm.ledger := congrArg Flow.ledger (hf .free [])
  have hcpu : (s₁.req r).cpuDeferred = (s.req r).cpuDeferred :=
    (congrArg Job.cpuDeferred hj).trans rfl
  have har : (s₁.req r).arrivalTime = (s.req r).arrivalTime :=
    (congrArg Job.arrivalTime hj).trans rfl
  unfold admitCPU
  rw [hcpu]
  split
  · rename_i cpuStart cpuEnd hsp
    have hend : cpuStart ≤ cpuEnd := hc.deferred r _ (by simpa using hsp)
    have hs : cpuStart = s.now := by
      rw [hnow, startTime, hsp]
    have ha : (s.flow (.event t (.requestStart r id)) c).Admits r w.cpuTimeMs none :=
      .deferred _ (by simpa using hsp)
    have hf₂ : ∀ h c, (s₁.update r fun q => { q with cpuDeferred := none }).flow h c =
        (s.flow h c).setJob r fun j => { j.begun id cache none with stage := .idle } := by
      intro h c
      rw [flow_update (fun j => { j with cpuDeferred := none }) fun _ => rfl, hf, setJob_setJob]
      rfl
    exact via_runRequest hv hw ha hs hend hf₂
  rename_i hn
  split
  · rename_i hr
    have hi : ¬ s.rm.ledger.Has id := by
      rw [← hle, has_iff]
      rw [reserveCPUWork, Option.map_eq_none_iff] at hr
      simp [hr]
    refine via_failStart fun lbl => ?_
    rw [flow_update (fun j => { j with status := .failed }) fun _ => rfl, hf, setJob_setJob]
    exact hv.act (.startMissing t r id cache lbl rfl hi)
  · rename_i cpuStart cpuEnd rm hr
    obtain ⟨hrm, hi⟩ := ledger_reserveCPUWork hr
    obtain ⟨harr, hend⟩ := reserveCPUWork_span hr
    obtain ⟨inst, hin, hfi⟩ := reserveCPUWork_finish hr
    rw [hle] at hi
    set res : Reservation := ⟨cpuStart, cpuEnd, inst.cpuNextFree, inst.cpuCores⟩ with hres
    set s₂ := noteReservation { s₁ with rm := rm } r s₁.rm id cpuStart cpuEnd with hs₂
    have hf₂ : ∀ h c, s₂.flow h c = (s.flow h c).setJob r fun j =>
        { j.drawn id cache with stage := .idle, reservation := some res } := by
      intro h c
      rw [hs₂, noteReservation, hin,
        flow_update (fun j => { j with reservation := some res }) fun _ => rfl,
        flow_rm hrm, hf, setJob_setJob]
      rfl
    have hn₂ : s₂.now = s.now := congrArg Flow.now (hf₂ .free [])
    simp only
    split_ifs with hl
    · rw [hn₂] at hl
      rw [flow_observe, flow_scheduleStart,
        flow_update (fun j => { j with cpuDeferred := some (cpuStart, cpuEnd) })
          fun _ => rfl, hf₂, setJob_setJob, setJob_setJob]
      exact hv.act (.startDefer t r id cache res rfl (by simpa using hn) hi hl hend)
    · rw [hn₂, gt_iff_lt, not_lt] at hl
      have hs : cpuStart = s.now := by
        refine le_antisymm hl ?_
        rw [hnow, startTime, hn]
        rwa [har] at harr
      have ha : (s.flow (.event t (.requestStart r id)) c).Admits r w.cpuTimeMs (some res) :=
        .fresh res (by simpa using hn) hl hfi
      have hf₃ : ∀ h c, s₂.flow h c = (s.flow h c).setJob r fun j =>
          { j.begun id cache (some res) with stage := .idle } := by
        intro h c
        rw [hf₂]
        refine setJob_congr ?_
        simp [Job.begun, Job.drawn, hn]
      exact via_runRequest hv hw ha hs hend hf₃

end Start

theorem via_handleRequestStart {id : String}
    (hv : Via env f₀ (s.flow (.event t (.requestStart r id)) c)) :
    Via env f₀ ((handleRequestStart env (s.update r fun q => { q with stage := .idle }) r id).flow
      .free c) := by
  have hm := hv.coherent
  have hdr : drainTick (s.update r fun q => { q with stage := .idle }) =
      (drainTick s).update r fun q => { q with stage := .idle } := by
    rw [drainTick_eq (s := s.update r _) hm, drainTick_eq hm]
    rfl
  have hv := via_drainTick hv
  unfold handleRequestStart
  simp only
  rw [hdr]
  generalize drainTick s = s₀ at hv
  have hf : ∀ h c, (s₀.update r fun q => { q with stage := .idle }).flow h c =
      (s₀.flow h c).setJob r fun j => { j with stage := .idle } := fun h c =>
    flow_update _ fun _ => rfl
  generalize s₀.update r (fun q => { q with stage := .idle }) = s₁ at hf
  split
  · rename_i ep svc _ _
    have hw : (resolveServiceExecutionProfile env s₁ svc ep).1.Nonneg :=
      resolveServiceExecutionProfile_nonneg svc ep
    have hd : ∀ h c, (assignInstance
        ((resolveServiceExecutionProfile env s₁ svc ep).2.update r fun q =>
          { q with profileDraws := q.profileDraws + 1 }) r id).flow h c =
        (s₀.flow h c).setJob r fun j =>
          { j with stage := .idle, profileDraws := j.profileDraws + 1
                   instanceID := if id = "" then j.instanceID else some id } := by
      intro h c
      rw [flow_assignInstance, flow_update (fun j =>
        { j with profileDraws := j.profileDraws + 1 }) fun _ => rfl,
        flow_resolveServiceExecutionProfile, hf, setJob_setJob, setJob_setJob]
      rfl
    generalize assignInstance _ r id = s₂ at hd
    set w := saturate s₂ svc id (resolveServiceExecutionProfile env s₁ svc ep).1
    obtain ⟨cache, hc⟩ := flow_sampleCache env s₂ r svc w
    have hw₂ : (sampleCache env s₂ r svc w).1.Nonneg := (hw.saturate svc id).sampleCache svc
    have hf₃ : ∀ h c, (drawLocalFailure env (sampleCache env s₂ r svc w).2 svc ep).2.flow h c =
        (s₀.flow h c).setJob r fun j => { j.drawn id cache with stage := .idle } := by
      intro h c
      rw [flow_drawLocalFailure, hc, hd, setJob_setJob]
      rfl
    split
    · exact via_failLocally hv hf₃
    · exact via_admitCPU hv hw₂ hf₃
  · rw [flow_observe, hf]
    exact hv.act (.startLost t r id rfl)

end SimCore.Simd
