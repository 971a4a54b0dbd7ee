import SimCore.Protocol.Books
import SimCore.Protocol.Clock

/-!
# The protocol state of the handlers' building blocks

What the operations on the run state that all handlers share do to the protocol state. Most samples,
random draws and routing leave it alone; the other operations are operations of the protocol state.

## Main definitions

* `Via`: a protocol state that actions reach from a given reached one

## Main results

* `State.flow_update`, `State.flow_scheduleAt`, …: one lemma per operation
-/

namespace SimCore.Simd

open Protocol Resource Config State List Flow

variable {env : Env} {s s' : State} {h : Hand} {c : List ReqId} {f : Flow} {q : Request}

/-! ### Operations on the run state -/

/-- Metrics of which the protocol state keeps no sample. -/
@[simp, reducible] def Metric.quiet (metric : Metric) : Bool :=
  metric != .requestCount && metric != .ingressLogicalFailure && metric != .serviceRequestLatency

theorem setJob_same {r : ReqId} {g : Job → Job} (hg : ∀ j, g j = j) : f.setJob r g = f := by
  rw [setJob, show g = id from funext hg, modify_id]

namespace State

theorem flow_samples : (s.flow h c).samples = (s.samples.filter observedSample : List Sample) := rfl

@[simp] theorem flow_length : (s.flow h c).jobs.length = s.heap.length := by
  simp [flow]

/-- The job of a request, in the run state and in the protocol state. -/
@[simp] theorem flow_job (r : ReqId) : jobAt (s.flow h c).jobs r = (s.req r).toJob := by
  simp only [flow, jobAt, req, getElem?_map, getD_eq_getElem?_getD]
  cases s.heap[r]? <;> rfl

theorem job_flow (r : ReqId) : (s.flow h c).job r = (s.req r).toJob :=
  flow_job r

theorem toJob_eq_of_jobs (hj : (s'.flow .free []).jobs = (s.flow .free []).jobs) (r : ReqId) :
    (s'.req r).toJob = (s.req r).toJob := by
  rw [← flow_job (h := .free) (c := []), hj, flow_job]

@[simp] theorem flow_take (h' : Hand) : (s.flow h c).take h' = s.flow h' c := rfl

@[simp] theorem flow_close (r : ReqId) : (s.flow h c).close r = s.flow h (r :: c) := rfl

variable {r : ReqId} {g : Request → Request}

theorem flow_update (g' : Job → Job) (hg : ∀ q, (g q).toJob = g' q.toJob) :
    (s.update r g).flow h c = (s.flow h c).setJob r g' := by
  have hj : (s.heap.modify r g).map Request.toJob = (s.heap.map Request.toJob).modify r g' := by
    refine ext_getElem? fun i => ?_
    rw [getElem?_map, getElem?_modify, getElem?_modify, getElem?_map]
    cases s.heap[i]? with
    | none => rfl
    | some => by_cases hi : r = i <;> simp [hi, hg]
  simp only [flow, update, setJob, hj, now]

@[simp] theorem flow_scheduleAt (t : Time) (k : EventKind) :
    (s.scheduleAt t k).flow h c = (s.flow h c).issue t k := by
  simp [flow, scheduleAt, issue, now]

@[simp] theorem flow_observe (o : Obs) : (s.observe o).flow h c = (s.flow h c).note o := rfl

theorem flow_update_same (hg : ∀ q, (g q).toJob = q.toJob) :
    (s.update r g).flow h c = s.flow h c := by
  rw [flow_update id hg]
  exact setJob_same fun _ => rfl

theorem req_update_eq (r x : ReqId) (g : Request → Request) :
    (s.update r g).req x = if x = r ∧ x < s.heap.length then g (s.req x) else s.req x := by
  simp only [req, update, getD_eq_getElem?_getD, getElem?_modify]
  by_cases hx : x < s.heap.length
  · by_cases hr : r = x <;> simp [hx, hr, eq_comm]
  · simp [hx]

@[simp] theorem flow_alloc (q : Request) : (s.alloc q).flow h c = (s.flow h c).addJob q.toJob := by
  simp [flow, alloc, addJob, now]

@[simp] theorem flow_addRequest (r : ReqId) :
    (s.addRequest r).flow h c = (s.flow h c).register r := by
  unfold addRequest
  cases hr : s.run.refusal with
  | none =>
    simp only [flow, register, RunManager.addRequest, hr, now]
    rfl
  | some =>
    simp only [flow, register, RunManager.addRequest, hr, now, Engine.refuseRequest_pending]
    rfl

theorem flow_finalizeRequest (r : ReqId) : (s.finalizeRequest env r).flow h c =
      (s.flow h (r :: c)).handOver r
        (decide ((s.req r).status = .failed ∨ (s.req r).error ≠ "")) (env.sampled r) := rfl

theorem flow_setPending (p : ReqId) (n : Option Nat) :
    ({ s with pendingSync := Function.update s.pendingSync p n } : State).flow h c =
      (s.flow h c).setPending p n := rfl

/-- What an update of a request leaves alone, it leaves alone in every request. -/
theorem req_update {α : Type} (φ : Request → α) (hg : ∀ q, φ (g q) = φ q) (x : ReqId) :
    φ ((s.update r g).req x) = φ (s.req x) := by
  simp only [req, update, getD_eq_getElem?_getD, getElem?_modify]
  cases s.heap[x]? with
  | none => rfl
  | some => by_cases hx : r = x <;> simp [hx, hg]

theorem flow_rm {rm : Manager} (hrm : rm.ledger = s.rm.ledger) :
    ({ s with rm := rm } : State).flow h c = s.flow h c := by
  simp [flow, hrm, now]

theorem flow_setLedger (rm : Manager) :
    ({ s with rm := rm } : State).flow h c = (s.flow h c).setLedger rm.ledger := rfl

@[simp] theorem flow_float64 : (s.float64 env).2.flow h c = s.flow h c := rfl

theorem flow_recordAt (t : Time) (metric : Metric) (value : ℚ) (lbl : Labels)
    (subject : Option ReqId) :
    (s.recordAt t metric value lbl subject).flow h c =
      (s.flow h c).sample ⟨metric, value, t, lbl, subject⟩ := by
  by_cases hx : observedSample ⟨metric, value, t, lbl, subject⟩ = true
  · simp [flow, recordAt, sample, hx, now]
  · simp [flow, recordAt, sample, hx, now]

section Quiet

variable {metric : Metric} {value : ℚ} {lbl : Labels} {subject : Option ReqId}

@[simp] theorem flow_recordAt_other {t : Time} (hq : metric.quiet = true) :
    (s.recordAt t metric value lbl subject).flow h c = s.flow h c := by
  cases metric <;> first | rfl | contradiction

@[simp] theorem flow_record_other (hq : metric.quiet = true) :
    (s.record metric value lbl subject).flow h c = s.flow h c :=
  flow_recordAt_other hq

end Quiet

end State

theorem lookup_origin (svc ep o : String) (rest : Labels) :
    (endpointLabelsWithOrigin svc ep o ++ rest).lookup "origin" = some o := by
  simp [endpointLabelsWithOrigin, lookup_cons]

@[simp] theorem lookup_origin_labels (q : Request) :
    q.labels.lookup "origin" = some (if q.isRoot then originIngress else originDownstream) := by
  exact lookup_origin ..

/-- The request count of a request that is not an ingress request is no ingress count. -/
theorem State.flow_record_requestCount (hq : q.isRoot = false) (value : ℚ)
    (subject : Option ReqId) :
    (s.record .requestCount value q.labels subject).flow h c = s.flow h c := by
  have hl : observedSample ⟨.requestCount, value, s.now, q.labels, subject⟩ = false := by
    simp [observedSample, hq, originIngress, originDownstream]
  rw [record, flow_recordAt, sample, hl]
  rfl

theorem noteIf_pos {b : Prop} [Decidable b] {o : Obs} (hb : b) : f.noteIf b o = f.note o := by
  simp [noteIf, note, hb]

theorem noteIf_neg {b : Prop} [Decidable b] {o : Obs} (hb : ¬ b) : f.noteIf b o = f := by
  simp [noteIf, hb]

theorem issueAll_nil (f : Flow) : f.issueAll [] = f := rfl

/-- A change to the request just created is a change to the request that is created. -/
theorem setJob_addJob (f : Flow) (j : Job) (g : Job → Job) :
    (f.addJob j).setJob f.size g = f.addJob (g j) := by
  have hj : ∀ l : List Job, (l ++ [j]).modify l.length g = l ++ [g j] := by
    intro l
    induction l with
    | nil => rfl
    | cons _ _ ih => simp [ih]
  simp [addJob, setJob, hj]

@[simp] theorem State.now_addRequest (r : ReqId) : (s.addRequest r).now = s.now := by
  unfold addRequest
  split <;> rfl

@[simp] theorem State.now_alloc (q : Request) : (s.alloc q).now = s.now := rfl

@[simp] theorem State.now_scheduleAt (t : Time) (k : EventKind) : (s.scheduleAt t k).now = s.now :=
  Engine.scheduleAt_simTime ..

@[simp] theorem State.now_scheduleStart (t : Time) (r : ReqId) (id : String) :
    (s.scheduleStart t r id).now = s.now :=
  now_scheduleAt ..

@[simp] theorem State.now_record (metric : Metric) (value : ℚ) (lbl : Labels)
    (subject : Option ReqId) : (s.record metric value lbl subject).now = s.now := rfl

@[simp] theorem State.now_observe (o : Obs) : (s.observe o).now = s.now := rfl

@[simp] theorem State.now_update (r : ReqId) (g : Request → Request) :
    (s.update r g).now = s.now := rfl

@[simp] theorem State.now_ite (b : Prop) [Decidable b] :
    (if b then s else s').now = if b then s.now else s'.now :=
  apply_ite now b s s'

@[simp] theorem State.flow_ite (b : Prop) [Decidable b] :
    (if b then s else s').flow h c = if b then s.flow h c else s'.flow h c :=
  apply_ite (fun s : State => s.flow h c) b s s'

theorem State.flow_scheduleStart (t : Time) (r : ReqId) (id : String) :
    (s.scheduleStart t r id).flow h c =
      ((s.flow h c).setJob r fun j => { j with stage := .queued }).issue t
        (.requestStart r id) := by
  rw [scheduleStart, flow_scheduleAt]
  congr 1
  exact flow_update _ fun _ => rfl

theorem setJob_register_addJob (j : Job) (g : Job → Job) :
    (((s.flow h c).addJob j).register s.heap.length).setJob s.heap.length g =
      ((s.flow h c).addJob (g j)).register s.heap.length := by
  rw [← setJob_addJob, size, flow_length]
  rfl

/-! ### Telemetry and routing -/

@[simp] theorem flow_recordInstanceAndHostGauges (svc id : String) (t : Time) :
    (recordInstanceAndHostGauges s svc id t).flow h c = s.flow h c := by
  unfold recordInstanceAndHostGauges
  split
  · rfl
  · simp only
    split <;> simp

theorem flow_recordServiceLatencies (r : ReqId) (extraMs : ℚ) : ∃ x, LatencySample r x ∧
      (recordServiceLatencies s r extraMs).flow h c = (s.flow h c).sample x := by
  refine ⟨⟨.serviceRequestLatency, localServiceHopLatencyMs (s.req r) s.now + extraMs, s.now,
    (s.req r).labels, some r⟩, ⟨rfl, rfl⟩, ?_⟩
  exact flow_recordAt ..

theorem recordServiceLatencies_eq (r : ReqId) (extraMs : ℚ) :
    ∃ xs, recordServiceLatencies s r extraMs = { s with samples := xs } :=
  ⟨_, rfl⟩

@[simp] theorem flow_recordTotalLatency (r : ReqId) :
    (recordTotalLatency s r).flow h c = s.flow h c := by
  unfold recordTotalLatency
  simp only
  split <;> simp

theorem flow_recordZoneMatch {hit miss : Metric} {zone calleeZone : String} {lbl : Labels}
    {subject : Option ReqId} (hh : hit.quiet = true) (hm : miss.quiet = true) :
    (recordZoneMatch s hit miss zone calleeZone lbl subject).flow h c = s.flow h c := by
  unfold recordZoneMatch
  split
  · rfl
  · split
    · exact flow_record_other hh
    · exact flow_record_other hm

theorem flow_selectInstanceForRequest {subject : Option ReqId} {id : String}
    (hs : selectInstanceForRequest env s q subject = .ok (id, s')) :
    s'.flow h c = s.flow h c ∧ s.rm.ledger.Routable id := by
  unfold selectInstanceForRequest at hs
  split at hs
  · cases hs
  · rename_i hrm
    cases hs
    rw [flow_recordZoneMatch rfl rfl, flow_recordZoneMatch rfl rfl, flow_record_other rfl]
    obtain ⟨hl, hc⟩ := Manager.ledger_selectInstanceForRequest hrm
    exact ⟨flow_rm hl, _, hc⟩

@[simp] theorem flow_sampleLatencyMs (spec : LatencySpec) :
    (sampleLatencyMs env s spec).2.flow h c = s.flow h c := rfl

@[simp] theorem flow_sampleDelayMs (spec : LatencySpec) :
    (sampleDelayMs env s spec).2.flow h c = s.flow h c := by
  unfold sampleDelayMs
  split <;> simp

theorem eq_of_configuredPenalty {spec spec' : LatencySpec} {recorded recorded' : List Metric}
    (hp : configuredPenalty spec recorded = some (spec', recorded')) : recorded' = recorded := by
  rw [configuredPenalty] at hp
  split_ifs at hp
  exact (Prod.mk.inj (Option.some.inj hp)).2.symm

theorem topologyPenalty_metrics {sc : Scenario} {m : Manager} {svc : Service} {id : String}
    {spec : LatencySpec} {recorded : List Metric}
    (hp : topologyPenalty sc m q svc id = some (spec, recorded)) :
    ∀ metric ∈ recorded, metric.quiet = true := by
  unfold topologyPenalty at hp
  split at hp
  · cases hp
  · simp only at hp
    split_ifs at hp
    · obtain rfl := eq_of_configuredPenalty hp
      simp
    · obtain rfl := eq_of_configuredPenalty hp
      simp
    · obtain rfl := eq_of_configuredPenalty hp
      simp
    · obtain ⟨_, -, heq⟩ := Option.map_eq_some_iff.1 hp
      obtain ⟨-, rfl⟩ := Prod.mk.inj heq
      simp

theorem flow_foldl {α : Type} {P : α → Prop} {g : State → α → State} {as : List α}
    (has : ∀ a ∈ as, P a) (hg : ∀ s a, P a → (g s a).flow h c = s.flow h c) :
    (as.foldl g s).flow h c = s.flow h c := by
  induction as generalizing s with
  | nil => rfl
  | cons a _ ih =>
    rw [foldl_cons, ih fun b hb => has b (mem_cons_of_mem a hb), hg s a (has a mem_cons_self)]

@[simp] theorem flow_applyTopologyNetworkPenaltyMs (r : ReqId) (id : String) :
    (applyTopologyNetworkPenaltyMs env s r id).2.flow h c = s.flow h c := by
  unfold applyTopologyNetworkPenaltyMs
  simp only
  split
  · rfl
  · split
    · rfl
    · rename_i hp
      split
      · simp
      · rw [flow_foldl (topologyPenalty_metrics hp) fun s m hm => flow_record_other hm]
        simp

theorem sampleLatencyMs_nonneg (spec : LatencySpec) : 0 ≤ (sampleLatencyMs env s spec).1 :=
  le_max_left _ _

theorem sampleDelayMs_nonneg (spec : LatencySpec) : 0 ≤ (sampleDelayMs env s spec).1 := by
  unfold sampleDelayMs
  split
  · exact sampleLatencyMs_nonneg _
  · exact le_rfl

/-! ### Reached protocol states -/

/-- Actions reach a protocol state from a reached one. -/
structure Via (env : Env) (f₀ f : Flow) : Prop where
  start : Reached env f₀
  acts : Acts env f₀ f

namespace Via

variable {f₀ f f' : Flow}

theorem act (hf : Via env f₀ f) (ha : Act env f f') : Via env f₀ f' :=
  ⟨hf.start, hf.acts.tail ha⟩

theorem reached (hf : Via env f₀ f) : Reached env f :=
  hf.start.acts hf.acts

theorem coherent (hf : Via env f₀ (s.flow h c)) : s.rm.ledger.Coherent :=
  hf.reached.coherent

end Via

end SimCore.Simd
