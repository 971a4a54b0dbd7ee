import SimCore.Protocol.Deferral
import SimCore.Refinement.Start

/-!
# Completion of requests and timeouts as actions

A request that finishes its local work acknowledges the message it consumes, issues its
asynchronous calls, and is finalised, waits for its publish acknowledgement, or waits for its
synchronous calls.

## Main results

* `via_makeDownstreamCalls`: the downstream calls of a request
* `via_handleRequestComplete`, `via_handleAsyncParentFinalize`, `via_handleDownstreamTimeout`
-/

namespace SimCore.Simd

open Protocol Resource Config Interaction State List Flow

variable {env : Env} {s s' s₁ : State} {h : Hand} {c : List ReqId} {f₀ : Flow} {r p : ReqId}
  {t : Time}
  {calls : List ResolvedCall} {rc : ResolvedCall} {phase : Phase} {acc : CallCursor × State}

/-! ### Building blocks -/

theorem dequeueNext_eq (hm : s.rm.ledger.Coherent) (r : ReqId) (t : Time) :
    dequeueNext s r t = s := by
  unfold dequeueNext dequeueNextRequestForInstance
  split
  · rename_i id _
    split
    · rfl
    · rename_i hq
      have hn := Manager.dequeueRequest_eq_none hm.toPlaced id
      rw [hq] at hn
      cases hn
  · rfl

theorem via_dequeueNext (hv : Via env f₀ (s.flow h c)) (r : ReqId) (t : Time) :
    Via env f₀ ((dequeueNext s r t).flow h c) := by
  rwa [dequeueNext_eq hv.coherent]

theorem flow_releaseResources (hm : s.rm.ledger.Coherent) :
    (releaseResources s r).flow h c = (s.flow h c).release r := by
  have hr : (s.flow h c).release r =
      (s.flow h c).setLedger ((s.req r).toJob.released s.rm.ledger) := by
    rw [release, job_flow]
    rfl
  rw [hr]
  unfold releaseResources Job.released
  simp only
  cases (s.req r).instanceID with
  | none => rfl
  | some id =>
    simp only
    rw [flow_recordInstanceAndHostGauges, flow_setLedger]
    set rm₁ := if (s.req r).allocatedCPUMs.isSome then s.rm.releaseCPU id s.now else s.rm with hrm₁
    have hl₁ : rm₁.ledger = if (s.req r).allocatedCPUMs.isSome then
        s.rm.ledger.modify id Account.leave else s.rm.ledger := by
      rw [hrm₁, apply_ite Manager.ledger, Manager.ledger_releaseCPU hm]
    have hm₁ : rm₁.ledger.Coherent := by
      rw [hl₁]
      split
      · exact hm.leave id
      · exact hm
    have hdb : ∀ rm : Manager, (if (s.req r).dbReserved = true then rm.releaseDBConnection id
        else rm).ledger = rm.ledger := by
      split <;> simp
    rw [hdb, ← hl₁]
    cases (s.req r).allocatedMemoryMB with
    | none => rfl
    | some mb => exact congrArg _ (Manager.ledger_releaseMemory hm₁ id mb)

/-- What a request gives back does not depend on its stage. -/
theorem release_setJob {f : Flow} (hr : r < f.size) {g : Job → Job}
    (hg : ∀ j L, (g j).released L = j.released L) :
    (f.setJob r g).release r = (f.release r).setJob r g := by
  simp [release, setJob, hr, hg]

/-! ### Acknowledgement -/

section Complete

variable (hv : Via env f₀ (s.flow (.event t (.requestComplete r)) c))
  (hflow : ∀ h c, s₁.flow h c = (((s.flow h c).release r).setJob r fun j =>
    { j with stage := .worked }).note (.workDone r s.now))
include hv hflow

/-- A request that finishes its local work and does not acknowledge a message. -/
theorem via_complete (ha : (s.req r).brokerAckTimedOut = false)
    (hd : ∀ del, (s.req r).delivery = some del → s.brokers.shards del.shard = none) :
    Via env f₀ (s₁.flow (.done r .opened) c) := by
  rw [hflow]
  exact hv.act (.complete t r rfl (by simpa using ha) (by simpa using hd))

theorem via_acknowledge (ha : (s.req r).brokerAckTimedOut = false)
    (hd : (s₁.req r).delivery = (s.req r).delivery) :
    Via env f₀ ((acknowledge s₁ r).flow (.done r .opened) c) := by
  have hs : s₁.brokers.shards = s.brokers.shards := congrArg shards (hflow .free [])
  have hn : s₁.now = s.now := congrArg Flow.now (hflow .free [])
  have hack := fun del sh (hdel : (s.req r).delivery = some del)
      (hsh : s.brokers.shards del.shard = some sh) =>
    hv.act (.completeAck t r del sh rfl (by simpa using ha) (by simpa using hdel) hsh)
  unfold acknowledge
  split
  · rename_i hdel
    exact via_complete hv hflow ha fun del hd' => by simp [← hd, hdel] at hd'
  · rename_i b topic m hdel
    unfold metaQueueConsumerDone
    simp only
    split
    · rename_i hsh
      refine via_complete hv hflow ha fun del hd' => ?_
      obtain rfl : _ = del := Option.some.inj (hdel.symm.trans (hd.trans hd'))
      exact hs ▸ hsh
    · rename_i sh hsh
      simp (disch := decide) only [flow_scheduleAt, flow_record_other, flow_observe,
        flow_setShard, hflow, now_record, now_observe, now_setShard, hn]
      exact hack ⟨.queue b topic, m⟩ sh (hd ▸ hdel) (hs ▸ hsh)
  · rename_i b topic partition g m hdel
    unfold metaTopicConsumerDone
    simp only
    split
    · rename_i hsh
      refine via_complete hv hflow ha fun del hd' => ?_
      obtain rfl : _ = del := Option.some.inj (hdel.symm.trans (hd.trans hd'))
      exact hs ▸ hsh
    · rename_i sh hsh
      rw [flow_scheduleAt, flow_recordTopicGauges, flow_observe, flow_setShard, hflow]
      refine Eq.mpr (congrArg (fun t' => Via env f₀ (issue _ t' _)) hn) ?_
      exact hack ⟨.topic b topic partition g, m⟩ sh (hd ▸ hdel) (hs ▸ hsh)

end Complete

/-- An acknowledgement adds the release of the delivery to the trace, if anything. -/
theorem trace_acknowledge (s : State) (r : ReqId) : (acknowledge s r).trace = s.trace ∨
    ∃ ref, (acknowledge s r).trace = .released r ref :: s.trace := by
  unfold acknowledge metaQueueConsumerDone metaTopicConsumerDone
  simp only
  split
  · exact .inl rfl
  · split
    · exact .inl rfl
    · exact .inr ⟨_, rfl⟩
  · split
    · exact .inl rfl
    · exact .inr ⟨_, rfl⟩

/-! ### Asynchronous calls -/

/-- A run of the asynchronous calls of a request: the request stays as it is, the time cursor does
not go back, and no acknowledgement promised to the request is later than the latest one noted. -/
structure Calling (env : Env) (f₀ : Flow) (r : ReqId) (phase : Phase) (c : List ReqId) (s : State)
    (acc : CallCursor × State) : Prop where
  via : Via env f₀ (acc.2.flow (.done r phase) c)
  job : (acc.2.req r).toJob = (s.req r).toJob
  cursor : acc.2.now ≤ acc.1.tAfter
  acks : ∀ t, .publishAck r t ∈ acc.2.trace → ∃ m, acc.1.maxAck = some m ∧ t ≤ m
  latest : ∀ m, acc.1.maxAck = some m → acc.2.now ≤ m

theorem mem_of_selectCalls {draw : Nat → ℚ} {i : Nat} (hrc : rc ∈ (selectCalls draw i calls).1) :
    rc ∈ calls := by
  induction calls generalizing i with
  | nil => simp [selectCalls] at hrc
  | cons a _ ih =>
    rcases mem_append.1 hrc with hrc | hrc
    · rw [eq_of_mem_replicate hrc]
      exact mem_cons_self
    · exact mem_cons_of_mem a (ih hrc)

/-- An asynchronous edge: what is issued, and the time at which the request is done with it. -/
theorem Calling.edge {e : EdgeCall} (ha : Calling env f₀ r phase c s acc) (hp : phase ≠ .deferred)
    (hsel : Selected env (s.req r).toJob rc true)
    (he : e = { target := rc, parent := r, nextTD := (s.req r).traceDepth + 1
                nextAD := (s.req r).asyncDepth + 1, isAsync := true, caller := e.caller
                edge := some rc }) :
    acc.1.tAfter ≤ (scheduleDownstreamWithCallerOverhead env acc.2 e acc.1.tAfter).1 ∧
      ∃ es, (∀ h c, (scheduleDownstreamWithCallerOverhead env acc.2 e acc.1.tAfter).2.flow h c =
          (acc.2.flow h c).issueAll es) ∧
        Via env f₀ ((acc.2.flow (.done r phase) c).issueAll es) := by
  have hv := ha.via
  have hj : (acc.2.flow (.done r phase) c).job r = (s.req r).toJob := by
    rw [job_flow, ha.job]
  have hs' : Selected env ((acc.2.flow (.done r phase) c).job r) rc true := by rwa [hj]
  have hc : e.core = ((acc.2.flow (.done r phase) c).job r).edgeCore r rc true none := by
    rw [hj, he]
    rfl
  have hre : e.fromRetry = false := by rw [he]
  have hpl := scheduleDownstream_cases env acc.2 e acc.1.tAfter
  generalize scheduleDownstreamWithCallerOverhead env acc.2 e acc.1.tAfter = res at hpl ⊢
  cases hpl with
  | overhead _ _ o hd hr ho ht hi ht' hs =>
    refine ⟨ht', o.events, hs, ?_⟩
    exact hv.act (.overheadAsync r phase o rc rfl hp hs' (hd.trans hc) (hr.trans hre) ho
      (ha.cursor.trans ht) hi)
  | dispatched _ hres =>
    cases hres with
    | publish ack _ k _ hk ht hs =>
      refine ⟨ht, [(ack, k)], hs, ?_⟩
      refine hv.act (.publishAsync r phase ack k rc rfl hp hs' ?_ (ha.cursor.trans ht))
      rw [hk, hj, he]
    | spawn hr => exact absurd hr (by simp [hre])
    | call t' _ d _ _ hd hm ht hs =>
      refine ⟨le_rfl, [(t', .downstreamCall d)], hs, ?_⟩
      refine hv.act (.callAsync r phase t' d rc rfl hp hs' ?_ ?_ (ha.cursor.trans ht))
      · rw [hd, hc]
        rfl
      · rw [hm, he]

theorem Calling.scheduleAsyncCall {caller : CallerTopology} (ha : Calling env f₀ r phase c s acc)
    (hp : phase ≠ .deferred) (hsel : Selected env (s.req r).toJob rc true) :
    Calling env f₀ r phase c s (scheduleAsyncCall env r caller (s.req r).traceDepth
      (s.req r).asyncDepth acc rc) := by
  obtain ⟨hle, es, hs, hv⟩ := ha.edge (e := {
    target := rc, parent := r, nextTD := (s.req r).traceDepth + 1
    nextAD := (s.req r).asyncDepth + 1, isAsync := true, caller := caller
    edge := some rc }) hp hsel rfl
  unfold Simd.scheduleAsyncCall
  simp only
  generalize scheduleDownstreamWithCallerOverhead env acc.2 _ acc.1.tAfter = res at hle hs ⊢
  rw [← hs] at hv
  have hnow : res.2.now = acc.2.now := congrArg Flow.now (hs .free [])
  have hj : (res.2.req r).toJob = (s.req r).toJob :=
    (toJob_eq_of_jobs (by rw [hs, issueAll_jobs]) r).trans ha.job
  have htr : (res.2.trace : Multiset Obs) = acc.2.trace := congrArg Flow.trace (hs .free [])
  -- A broker edge promises an acknowledgement.
  obtain ⟨s₂, hs₂⟩ : ∃ s₂, s₂ = if usesAsyncBroker env.scenario rc = true then
    res.2.observe (.publishAck r res.1) else res.2 := ⟨_, rfl⟩
  rw [← hs₂]
  have hv₂ : Via env f₀ (s₂.flow (.done r phase) c) := by
    rw [hs₂]
    split
    · exact hv.act (.promise r phase res.1 rfl hp)
    · exact hv
  have hn₂ : s₂.now = acc.2.now := by
    rw [hs₂, now_ite, now_observe, ite_self, hnow]
  have hj₂ : (s₂.req r).toJob = (s.req r).toJob := by
    rw [hs₂]
    split <;> exact hj
  have hac : ∀ t, .publishAck r t ∈ s₂.trace → t = res.1 ∨ .publishAck r t ∈ acc.2.trace := by
    intro t ht
    have hmem : ∀ o : Obs, o ∈ res.2.trace ↔ o ∈ acc.2.trace := fun o => by
      rw [← Multiset.mem_coe, htr, Multiset.mem_coe]
    rw [hs₂] at ht
    split at ht
    · simpa [State.observe, hmem] using ht
    · exact .inr ((hmem _).1 ht)
  have hc := hn₂.trans_le (ha.cursor.trans hle)
  have hl : ∀ latest, res.1 ≤ latest → (∀ m, acc.1.maxAck = some m → m ≤ latest) →
      Calling env f₀ r phase c s (⟨res.1, some latest⟩, s₂) := by
    intro latest hn hold
    refine ⟨hv₂, hj₂, hc, fun t ht => ⟨latest, rfl, ?_⟩, fun m heq => ?_⟩
    · rcases hac t ht with rfl | ht
      · exact hn
      · obtain ⟨m, hm, hle⟩ := ha.acks t ht
        exact hle.trans (hold m hm)
    · cases heq
      exact hc.trans hn
  cases hm : acc.1.maxAck with
  | none => exact hl _ le_rfl (by simp [hm])
  | some m =>
    by_cases hgt : res.1 > m
    · simp only [if_pos hgt]
      exact hl _ le_rfl (by simpa [hm] using hgt.le)
    · simp only [if_neg hgt]
      exact hl _ (not_lt.1 hgt) (by simp [hm])

theorem Calling.foldl (caller : CallerTopology) (hp : phase ≠ .deferred)
    (hs : ∀ rc ∈ calls, Selected env (s.req r).toJob rc true)
    (ha : Calling env f₀ r phase c s acc) :
    Calling env f₀ r phase c s (calls.foldl (Simd.scheduleAsyncCall env r caller
      (s.req r).traceDepth (s.req r).asyncDepth) acc) := by
  induction calls generalizing acc with
  | nil => exact ha
  | cons rc _ ih =>
    exact ih (fun rc' hrc' => hs rc' (mem_cons_of_mem rc hrc'))
      (ha.scheduleAsyncCall hp (hs rc mem_cons_self))

/-! ### Synchronous calls -/

/-- A selection depends on the endpoint and on the depths of the caller. -/
theorem selected_congr {j j' : Job} {isAsync : Bool} (hs : Selected env j rc isAsync)
    (hj : SameOrigin j j') : Selected env j' rc isAsync := by
  obtain ⟨hd, hw, hm⟩ := hs
  refine ⟨?_, ?_, hm⟩
  · simpa only [hj.serviceName, hj.endpoint] using hd
  · simpa only [hj.traceDepth, hj.asyncDepth] using hw

section Sync

variable {f : Flow} (caller : CallerTopology)

/-- A synchronous edge launches one logical call. -/
theorem launch_scheduleSyncCall (acc : Time × State) {rc : ResolvedCall} (k : CallId)
    (hsel : Selected env (f.job r) rc false) (hn : f.now ≤ acc.1)
    (hl : f.ledger = acc.2.rm.ledger) :
    acc.1 ≤ (scheduleSyncCall env r caller (f.job r).traceDepth (f.job r).asyncDepth acc
      (rc, k)).1 ∧ ∃ es, Launch env f r k es ∧ ∀ h c,
        (scheduleSyncCall env r caller (f.job r).traceDepth (f.job r).asyncDepth acc
          (rc, k)).2.flow h c = (acc.2.flow h c).issueAll es := by
  have hbr : usesAsyncBroker env.scenario rc = false := by
    have hmo := hsel.mode
    simp only [Bool.or_eq_false_iff] at hmo
    exact hmo.1
  unfold scheduleSyncCall
  set e : EdgeCall :=
    { target := rc, parent := r, nextTD := (f.job r).traceDepth + 1, nextAD := (f.job r).asyncDepth
      isAsync := false, caller := caller, call := some k, edge := some rc } with he
  have hp := scheduleDownstream_cases env acc.2 e acc.1
  generalize scheduleDownstreamWithCallerOverhead env acc.2 e acc.1 = res at hp
  cases hp with
  | overhead _ _ o hd hr ho ht hi ht' hs =>
    rw [← hl] at hi
    exact ⟨ht', o.events, .overhead o rc hsel hd hr ho (hn.trans ht) hi, hs⟩
  | dispatched _ hres =>
    cases hres with
    | publish _ _ _ hb => exact absurd hb (by simp [he, hbr])
    | spawn hr => cases hr
    | call t' _ d _ _ hd hm ht hs =>
      exact ⟨le_rfl, [(t', .downstreamCall d)], .call t' d rc hsel hd hm (hn.trans ht), hs⟩

theorem scheduleSyncCalls_cons (td ad : Int) (rc : ResolvedCall) (calls : List ResolvedCall)
    (base : CallId) (t : Time) :
    scheduleSyncCalls env s r caller td ad (rc :: calls) base t =
      scheduleSyncCalls env (scheduleSyncCall env r caller td ad (t, s) (rc, base)).2 r caller td ad
        calls (base + 1) (scheduleSyncCall env r caller td ad (t, s) (rc, base)).1 := by
  rw [scheduleSyncCalls, scheduleSyncCalls, zipIdx_cons, foldl_cons, Prod.mk.eta]

/-- The synchronous edges launch one logical call each. -/
theorem launches_scheduleSyncCalls {calls : List ResolvedCall}
    (hsel : ∀ rc ∈ calls, Selected env (f.job r) rc false) (base : CallId) {s : State} {t : Time}
    (hn : f.now ≤ t) (hl : f.ledger = s.rm.ledger) :
    ∃ es, Launches env f r base calls.length es ∧ ∀ h c,
      (scheduleSyncCalls env s r caller (f.job r).traceDepth (f.job r).asyncDepth calls base
        t).2.flow h c = (s.flow h c).issueAll es := by
  induction calls generalizing base s t with
  | nil => exact ⟨[], .nil base, fun h c => (issueAll_nil _).symm⟩
  | cons rc _ ih =>
    obtain ⟨hle, es, hes, hs⟩ := launch_scheduleSyncCall caller (t, s) base
      (hsel rc mem_cons_self) hn hl
    rw [scheduleSyncCalls_cons]
    generalize scheduleSyncCall env r caller _ _ (t, s) (rc, base) = res at hle hs
    have hl' : f.ledger = res.2.rm.ledger :=
      hl.trans (congrArg ledger (hs .free [])).symm
    obtain ⟨es', hes', hs'⟩ := ih (fun rc' hrc' => hsel rc' (mem_cons_of_mem rc hrc'))
      (base + 1) (hn.trans hle) hl'
    refine ⟨es' ++ es, .cons hes hes', fun h c => ?_⟩
    simp [hs', hs, issueAll]

/-- A request with synchronous calls waits for them. -/
theorem via_scheduleSyncCalls {phase : Phase} {j : Job} {calls : List ResolvedCall}
    (hne : ¬ calls.isEmpty = true) (hsel : ∀ rc ∈ calls, Selected env j rc false)
    (hj : SameOrigin j (f.job r)) (hv : Via env f₀ f) (hh : f.hand = .done r phase)
    (hp : phase ≠ .opened)
    (hs : s.flow .free c =
      ((f.setPending r (some calls.length)).addCalls r calls.length).take .free)
    (ht : f.now ≤ t) :
    Via env f₀ ((scheduleSyncCalls env s r caller j.traceDepth j.asyncDepth calls
      f.calls.length t).2.flow .free c) := by
  have hl : f.ledger = s.rm.ledger := (congrArg ledger hs).symm
  obtain ⟨es, hes, hflow⟩ := launches_scheduleSyncCalls caller
    (fun rc hrc => selected_congr (hsel rc hrc) hj) f.calls.length ht hl
  have hpos : 0 < calls.length := length_pos_iff.2 (by simpa using hne)
  rw [← hj.traceDepth, ← hj.asyncDepth, hflow, hs]
  exact hv.act (.await r phase calls.length es hh hp hpos hes)

end Sync

/-! ### Downstream calls -/

theorem selected_of_partition (env : Env) (j : Job)
    (hc : ∀ rc ∈ calls, rc ∈ downstreamEdges env.scenario j.serviceName j.endpoint) :
    (∀ rc ∈ (partitionDownstreamFiltered env.scenario calls j.traceDepth j.asyncDepth).1,
      Selected env j rc true) ∧
    ∀ rc ∈ (partitionDownstreamFiltered env.scenario calls j.traceDepth j.asyncDepth).2,
      Selected env j rc false := by
  simp only [partitionDownstreamFiltered, partition_eq_filter_filter, mem_filter]
  constructor
  · rintro rc ⟨⟨hrc, hw⟩, hm⟩
    exact ⟨hc rc hrc, hw, hm⟩
  · rintro rc ⟨⟨hrc, hw⟩, hm⟩
    exact ⟨hc rc hrc, hw, by simpa using hm⟩

theorem maxAck_of_calls (env : Env) (r : ReqId) (caller : CallerTopology) (td ad : Int)
    (hne : calls ≠ []) (acc : CallCursor × State) :
    ((calls.foldl (scheduleAsyncCall env r caller td ad) acc).1.maxAck).isSome = true := by
  obtain ⟨calls, rc, rfl⟩ := (eq_nil_or_concat' calls).resolve_left hne
  rw [foldl_append]
  rfl

theorem flow_deferFinalize (maxAck : Time) (extraMs : ℚ) :
    (deferFinalize s r maxAck extraMs).flow h c = ((s.flow h c).setJob r fun j =>
      { j with deferredQueueFinalize := true, queueAckDeadline := some maxAck }).note
        (.finalizeDeferred r maxAck) := by
  rw [deferFinalize, flow_observe]
  congr 1
  exact flow_update _ fun _ => rfl

theorem flow_awaitCalls (n : Nat) :
    (s.awaitCalls r n).flow h c = ((s.flow h c).setPending r (some n)).addCalls r n := rfl

theorem Via.deadline_eq_none (hv : Via env f₀ (s.flow (.done r .opened) c)) :
    (s.req r).queueAckDeadline = none := by
  have hh := hv.reached.stages.hand
  simp only [flow_hand, HandStage, reduceCtorEq, flow_job, false_iff,
    Option.not_isSome_iff_eq_none] at hh
  exact hh.2.2.2.2

theorem via_makeDownstreamCalls (hn : ∀ t, .publishAck r t ∉ s.trace)
    (hv : Via env f₀ (s.flow (.done r .opened) c)) :
    Via env f₀ ((makeDownstreamCalls env s r).flow .free c) := by
  have hde := hv.deadline_eq_none
  unfold makeDownstreamCalls
  simp only
  set selected := selectCalls env.branching.float64 s.branchDraws
    (downstreamEdges env.scenario (s.req r).serviceName (s.req r).endpoint) with hse
  obtain ⟨ha, hs⟩ := selected_of_partition env (s.req r).toJob
    fun rc (hrc : rc ∈ selected.1) => mem_of_selectCalls hrc
  set calls := partitionDownstreamFiltered env.scenario selected.1 (s.req r).traceDepth
    (s.req r).asyncDepth with hcalls
  set defers := calls.1.any (defersFinalize env.scenario) with hdefers
  set extraMs := ((calls.1 ++ calls.2).map (computeDownstreamCallerCPU env.scenario)).sum
  generalize hs₁ : (if (s.req r).cacheMiss = true then State.record _ _ _ _ _ else _) = s₁
  by_cases hd : defers = true
  · have hne : calls.1 ≠ [] := by
      rintro hnil
      simp [hdefers, hnil] at hd
    have hf₁ : ∀ h c, s₁.flow h c = s.flow h c := by
      intro h c
      rw [← hs₁, flow_ite, flow_record_other rfl, ite_self, if_pos hd]
      rfl
    have hca : Calling env f₀ r .opened c s (⟨s₁.now, none⟩, s₁) := by
      refine ⟨?_, toJob_eq_of_jobs (by rw [hf₁]) r, le_rfl, fun t ht => ?_, by simp⟩
      · rw [hf₁]
        exact hv
      · have htr : (s₁.trace : Multiset Obs) = s.trace := congrArg Flow.trace (hf₁ .free [])
        rw [← Multiset.mem_coe, htr, Multiset.mem_coe] at ht
        exact absurd ht (hn t)
    have hso := maxAck_of_calls env r (callerOf (s.req r)) (s.req r).traceDepth
      (s.req r).asyncDepth hne (⟨s₁.now, none⟩, s₁)
    have hc := hca.foldl (callerOf (s.req r)) (by decide) ha
    generalize foldl (scheduleAsyncCall env r _ _ _) _ _ = acc at hc hso ⊢
    obtain ⟨deadline, hack⟩ := Option.isSome_iff_exists.1 hso
    have hdefer := hc.via.act (.defer r deadline rfl (fun t ht => by
      obtain ⟨m, hm, hle⟩ := hc.acks t (by simpa using ht)
      rw [hack] at hm
      cases hm
      exact hle) (hc.latest deadline hack))
    simp only [hd, if_true, hack, Option.getD_some]
    split
    · refine via_dequeueNext ?_ r _
      rw [flow_scheduleAt, flow_deferFinalize]
      exact hdefer.act (.rest r rfl)
    · rename_i hne'
      refine via_dequeueNext (via_scheduleSyncCalls _ hne' hs ?_ hdefer rfl (by decide) ?_
        hc.cursor) r _
      · rw [← hc.job, ← flow_job (h := .free) (c := [])]
        exact SameOrigin.modify (g := fun j =>
          { j with deferredQueueFinalize := true, queueAckDeadline := some deadline })
          (fun _ => ⟨rfl, rfl, rfl, rfl, rfl, rfl, rfl, rfl, rfl, rfl, rfl, rfl⟩) _ r r
      · rw [flow_scheduleAt, flow_awaitCalls, flow_deferFinalize]
        rfl
  · obtain ⟨x, hx, hflow⟩ := flow_recordServiceLatencies (s := { s with branchDraws := selected.2 })
      (h := .done r .counted) (c := c) r extraMs
    have hv₁ : Via env f₀ (s₁.flow (.done r .counted) c) := by
      rw [← hs₁, flow_ite, flow_record_other rfl, ite_self, if_neg hd, hflow]
      exact hv.act (.measure r x rfl hx)
    obtain ⟨xs, hxs⟩ := recordServiceLatencies_eq (s := { s with branchDraws := selected.2 }) r
      extraMs
    obtain ⟨xs', hxs'⟩ : ∃ xs', s₁ = { s with branchDraws := selected.2, samples := xs' } := by
      rw [← hs₁, if_neg hd, hxs]
      split <;> exact ⟨_, rfl⟩
    have hca : Calling env f₀ r .counted c s (⟨s₁.now, none⟩, s₁) := by
      refine ⟨hv₁, by rw [hxs']; rfl, le_rfl, fun t ht => ?_, by simp⟩
      rw [hxs'] at ht
      exact absurd ht (hn t)
    have hc := hca.foldl (callerOf (s.req r)) (by decide) ha
    generalize foldl (scheduleAsyncCall env r _ _ _) _ _ = acc at hc ⊢
    split
    · refine via_dequeueNext (via_finalizeRequestCompletion ?_
        (hc.via.act (.finishWork r false rfl))) r _
      rw [hc.job, hde]
      simp
    · rename_i hne'
      refine via_dequeueNext (via_scheduleSyncCalls _ hne' hs ?_ hc.via rfl (by decide) rfl
        hc.cursor) r _
      rw [job_flow, hc.job]
      exact SameOrigin.refl _

/-! ### Handlers -/

theorem via_completeLocalTimeout (hv : Via env f₀ (s.flow (.done r .opened) c)) :
    Via env f₀ ((completeLocalTimeout env s r).flow .free c) := by
  refine via_dequeueNext (via_finalizeRequestFailure (.inl rfl) ?_) r _
  obtain ⟨x, hx, hflow⟩ := flow_recordServiceLatencies (s := s) (h := .due r true) (c := c) r 0
  rw [flow_ite, flow_record_other rfl, ite_self, flow_ite, flow_record_other rfl, ite_self, hflow]
  exact (hv.act (.measure r x rfl hx)).act (.finishWork r true rfl)

theorem via_completeCacheHit (hv : Via env f₀ (s.flow (.done r .opened) c)) :
    Via env f₀ ((completeCacheHit env s r).flow .free c) := by
  have hde := hv.deadline_eq_none
  refine via_dequeueNext (via_finalizeRequestCompletion ?_ ?_) r _
  · intro deadline hd
    cases hde.symm.trans hd
  · obtain ⟨x, hx, hflow⟩ := flow_recordServiceLatencies (s := s) (h := .due r false) (c := c) r 0
    rw [flow_record_other rfl, hflow]
    exact (hv.act (.measure r x rfl hx)).act (.finishWork r false rfl)

theorem via_handleRequestComplete (hv : Via env f₀ (s.flow (.event t (.requestComplete r)) c)) :
    Via env f₀ ((handleRequestComplete env ((s.update r fun q =>
      { q with stage := .worked }).observe (.workDone r s.now)) r).flow .free c) := by
  have hm := hv.coherent
  have hnow := now_drainTick hm
  have hdr : drainTick ((s.update r fun q => { q with stage := .worked }).observe
      (.workDone r s.now)) = ((drainTick s).update r fun q => { q with stage := .worked }).observe
        (.workDone r (drainTick s).now) := by
    rw [hnow, drainTick_eq (s := (s.update r _).observe _) hm, drainTick_eq hm]
    rfl
  have hv := via_drainTick hv
  unfold handleRequestComplete
  simp only
  rw [hdr]
  generalize drainTick s = s at hv
  have hlt : r < s.heap.length := by
    have hf : (s.flow (.event t (.requestComplete r)) c).Fits env (.complete r) :=
      hv.reached.shape.fits_hand rfl
    simpa [Flow.Fits] using hf
  have hn : ∀ t, .publishAck r t ∉ s.trace := by
    intro t' ht'
    have hw := hv.reached.promised (r := r) (t := t') (by simpa using ht')
    have hr := hv.reached.stages.of_complete rfl
    rw [hw] at hr
    cases hr
  set s₁ := releaseResources ((s.update r fun q => { q with stage := .worked }).observe
    (.workDone r s.now)) r with hs₁
  have hflow : ∀ h c, s₁.flow h c = (((s.flow h c).release r).setJob r fun j =>
      { j with stage := .worked }).note (.workDone r s.now) := by
    intro h c
    rw [hs₁, flow_releaseResources (s := (s.update r _).observe _) hv.coherent, flow_observe,
      flow_update (fun j => { j with stage := .worked }) fun _ => rfl]
    have hre := release_setJob (f := s.flow h c) (r := r)
      (g := fun j => { j with stage := .worked }) (by simpa using hlt) fun _ _ => rfl
    exact congrArg (note · _) hre
  have hj : (s₁.req r).toJob = { (s.req r).toJob with stage := .worked } := by
    rw [← flow_job (h := .free) (c := []), hflow]
    simp [hlt]
  have htrace : ∀ t, .publishAck r t ∉ s₁.trace := by
    intro t' ht'
    have htr : (s₁.trace : Multiset Obs) = .workDone r s.now ::ₘ (s.trace : Multiset Obs) :=
      congrArg Flow.trace (hflow .free [])
    rw [← Multiset.mem_coe, htr, Multiset.mem_cons, Multiset.mem_coe] at ht'
    rcases ht' with ht' | ht'
    · cases ht'
    · exact hn t' ht'
  have ht : (s₁.req r).brokerAckTimedOut = (s.req r).brokerAckTimedOut :=
    (congrArg Job.brokerAckTimedOut hj).trans rfl
  have hde : (s₁.req r).delivery = (s.req r).delivery :=
    (congrArg Job.delivery hj).trans rfl
  split
  · rename_i ha
    rw [ht] at ha
    have hla := hv.act (.completeLate t r rfl (by simpa using ha))
    rw [flow_observe]
    have hm₁ : s₁.rm.ledger.Coherent := by
      have hl : s₁.rm.ledger = _ := congrArg ledger (hflow .free [])
      rw [hl]
      exact coherent_released hv.coherent _
    rw [dequeueNext_eq hm₁, hflow]
    exact hla
  · rename_i ha
    rw [ht] at ha
    have hd := via_acknowledge hv hflow (by simpa using ha) hde
    have hp : ∀ t, .publishAck r t ∉ (acknowledge s₁ r).trace := by
      intro t' ht'
      rcases trace_acknowledge s₁ r with heq | ⟨ref, heq⟩
      · exact htrace t' (heq ▸ ht')
      · rw [heq, mem_cons] at ht'
        rcases ht' with ht' | ht'
        · cases ht'
        · exact htrace t' ht'
    split
    · exact via_completeLocalTimeout hd
    · split
      · exact via_completeCacheHit hd
      · exact via_makeDownstreamCalls hp hd

theorem via_handleAsyncParentFinalize
    (hv : Via env f₀ (s.flow (.event t (.asyncParentFinalize r)) c)) :
    Via env f₀ ((handleAsyncParentFinalize env s r).flow .free c) := by
  rw [← flow_noteSimTime] at hv
  unfold handleAsyncParentFinalize
  simp only
  set s₀ : State := { s with rm := s.rm.noteSimTime s.now } with hs₀
  have hlt : r < s₀.heap.length := by
    have hf : (s₀.flow (.event t (.asyncParentFinalize r)) c).Fits env (.finalize r) :=
      hv.reached.shape.fits_hand rfl
    simpa [Flow.Fits] using hf
  split_ifs with hn
  · cases hp : s.pendingSync r with
    | none => simp [hp] at hn
    | some =>
      obtain ⟨m, rfl⟩ := Nat.exists_eq_add_one_of_ne_zero
        (Nat.pos_iff_ne_zero.1 (by simpa [hp] using hn))
      exact hv.act (.ackPassed t r m rfl hp)
  · set s₁ := s₀.update r fun q =>
      { q with deferredQueueFinalize := false, queueAckDeadline := none
               deferredCallerExtraMs := 0 } with hs₁
    set extraMs := (s₀.req r).deferredCallerExtraMs
    refine via_dequeueNext (via_finalizeRequestCompletion ?_ ?_) r _
    · intro deadline hd
      have hde : (s₁.req r).queueAckDeadline = none := by
        rw [hs₁, req_update_eq, if_pos ⟨rfl, hlt⟩]
      cases hde.symm.trans hd
    · obtain ⟨x, hx, hflow⟩ := flow_recordServiceLatencies (s := s₁) (h := .due r false) (c := c) r
        extraMs
      rw [hflow, hs₁, flow_update (fun j =>
        { j with deferredQueueFinalize := false, queueAckDeadline := none }) fun _ => rfl]
      refine hv.act (.ackDone t r x rfl ?_ hx)
      cases hp : s.pendingSync r with
      | none => exact .inl hp
      | some => exact .inr (hp.trans (congrArg some (by simpa [hp] using hn)))

theorem via_timeoutAsync (hv : Via env f₀ (s.flow (.event t (.downstreamTimeout r p true)) c)) :
    Via env f₀ ((timeoutAsync env s r p).flow .free c) := by
  have hf := hv.act (.discard t _ rfl rfl)
  unfold timeoutAsync
  simp only
  split
  · exact hf
  rename_i hs
  split
  · exact hf
  rw [not_or] at hs
  have hst : ((s.flow (.event t (.downstreamTimeout r p true)) c).job r).status ≠ .completed ∧
      ((s.flow (.event t (.downstreamTimeout r p true)) c).job r).status ≠ .failed := by
    rw [job_flow]
    exact hs
  set s₁ := (s.record .requestErrorCount 1 _ (some r)).observe (.breaker r false) with hs₁
  have hf₁ : ∀ h c, s₁.flow h c = (s.flow h c).note (.breaker r false) := by
    intro h c
    rw [hs₁, flow_observe, flow_record_other rfl]
  have hreq : (s₁.req r).toJob = (s.req r).toJob :=
    toJob_eq_of_jobs (by rw [hf₁, note_jobs]) r
  split
  · rename_i hr
    obtain ⟨hl, t', ht', hflow⟩ := maybeRetryWith_eq_some hr
    rw [hflow, flow_update (fun j => { j with asyncAttemptAbandoned := true }) fun _ => rfl, hf₁]
    exact hv.act (.timeoutAbandon t t' r p _ rfl hst (by rw [job_flow, ← hreq]; exact hl)
      (by rw [job_flow, ← hreq]; rfl) ht')
  · rw [flow_update (fun j => { j with asyncOpTimedOut := true }) fun _ => rfl, hf₁]
    exact hv.act (.timeoutGiveUp t r p rfl hst)

theorem via_timeoutSync (hr : (s.req r).callerSyncResolved = false)
    (hv : Via env f₀ (s.flow (.event t (.downstreamTimeout r p false)) c)) :
    Via env f₀ ((timeoutSync env s r p).flow .free c) := by
  unfold timeoutSync
  simp only
  split
  · exact hv.act (.discard t _ rfl rfl)
  rename_i hs
  set s₁ := ((s.update r fun q => { q with syncWaitTimedOut := true }).record .requestErrorCount 1
    _ (some r)).observe (.breaker r false) with hs₁
  have hf₁ : ∀ h c, s₁.flow h c = ((s.flow h c).setJob r fun j =>
      { j with syncWaitTimedOut := true }).note (.breaker r false) := by
    intro h c
    rw [hs₁, flow_observe, flow_record_other rfl,
      flow_update (fun j => { j with syncWaitTimedOut := true }) fun _ => rfl]
  have hlt : r < s.heap.length := by
    have hf : (s.flow (.event t (.downstreamTimeout r p false)) c).Fits env
      (.timeout r p false) := hv.reached.shape.fits_hand rfl
    simpa using lt_of_parent hf.1
  have hreq : (s₁.req r).toJob = { (s.req r).toJob with syncWaitTimedOut := true } := by
    rw [← flow_job (h := .free) (c := []), hf₁]
    simp [hlt]
  split
  · rename_i hre
    obtain ⟨hl, t', ht', hflow⟩ := maybeRetryWith_eq_some hre
    have ha : (s₁.req r).retryAttempt = (s.req r).retryAttempt :=
      (congrArg Job.retryAttempt hreq).trans rfl
    have hc : core (retrySpawn (s₁.req r) p false) = (s.req r).toJob.retryCore p false :=
      (congrArg (Job.retryCore · p false) hreq).trans rfl
    rw [ha] at hl
    have hact := hv.act (.timeoutRetry t t' r p (retrySpawn (s₁.req r) p false) rfl
      (by simpa using hr) (by simpa using hs) (by simpa using hl)
      (by rw [job_flow]; exact hc) ht')
    have hj := setJob_setJob (s.flow .free c) r (fun j => { j with syncWaitTimedOut := true })
      fun j => { j with callerSyncResolved := true }
    rw [hflow, flow_isolate, hf₁]
    exact (congrArg (fun f : Flow => (f.note (.breaker r false)).issue t'
      (.downstreamRetry (retrySpawn (s₁.req r) p false))) hj) ▸ hact
  · refine via_notifyParentSyncChildResolved ?_
    rw [hf₁]
    exact hv.act (.timeoutReport t r p rfl (by simpa using hr) (by simpa using hs))

theorem via_handleDownstreamTimeout {isAsync : Bool}
    (hv : Via env f₀ (s.flow (.event t (.downstreamTimeout r p isAsync)) c)) :
    Via env f₀ ((handleDownstreamTimeout env s r p isAsync).flow .free c) := by
  rw [← flow_noteSimTime] at hv
  unfold handleDownstreamTimeout
  simp only
  split
  · exact hv.act (.discard t _ rfl rfl)
  split
  · exact hv.act (.discard t _ rfl rfl)
  rename_i hr
  cases isAsync with
  | true => exact via_timeoutAsync hv
  | false => exact via_timeoutSync (by simpa using hr) hv

end SimCore.Simd
