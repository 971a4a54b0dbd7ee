import SimCore.Refinement.Projection

/-!
# Finalisation as actions

Finalising a request closes it, reports it to its parent, and hands it over. The parent whose last
call resolves is finalised in turn while its child is still to be handed over.

## Main results

* `via_finalizeChain`: the chain of finalisations is a sequence of actions
* `via_finalizeRequestCompletion`, `via_finalizeRequestFailure`,
  `via_notifyParentSyncChildResolved`, …: the functions of the source as instances
-/

namespace SimCore.Simd

open Protocol Resource Config State

variable {env : Env} {s s' : State} {h : Hand} {c : List ReqId} {f₀ : Flow} {r p : ReqId}
  {failed : Bool}

/-! ### Building blocks -/

@[simp] theorem flow_recordFailureSamples (reason : String) :
    (recordFailureSamples s r reason).flow h c =
      (s.flow h c).blame r (endpointErrorLabels (s.req r).labels reason) := by
  unfold recordFailureSamples Flow.blame
  simp only [flow_job, Request.isRoot, Option.isNone_iff_eq_none]
  split
  · rw [State.record, flow_recordAt, flow_record_other rfl]
    rfl
  · rw [flow_record_other rfl]

@[simp] theorem flow_closeRequest (status : Status) (error : String) :
    (closeRequest s r status error).flow h c = (s.flow h c).setJob r fun j =>
      { j with desFinalized := true, status := status, completionTime := some s.now } :=
  flow_update _ fun _ => rfl

theorem flow_failSubtree (failed : Bool) :
    (if failed then markSubtreeFailed s p else s).flow h c = (s.flow h c).failSubtree p failed := by
  have hs : ∀ b : Bool, b = false → (s.flow h c).setJob p (fun j =>
      { j with subtreeFailed := j.subtreeFailed || b }) = s.flow h c := by
    rintro b rfl
    exact setJob_same fun j => by simp
  unfold markSubtreeFailed
  cases failed with
  | false => exact (hs _ rfl).symm
  | true =>
    cases hk : s.run.knows p with
    | false => exact (hs (true && s.run.knows p) (by simp [hk])).symm
    | true =>
      simp only [if_true]
      rw [flow_update (fun j => { j with subtreeFailed := true }) fun _ => rfl]
      simp [Flow.setJob, Flow.failSubtree, hk]

theorem decrementPendingSync_eq_some {call : Option CallId} {n : Nat}
    (hd : decrementPendingSync s p call = some (n, s')) : s.pendingSync p = some (n + 1) ∧
      s' = { s with pendingSync := Function.update s.pendingSync p (countdown n) }.observe
        (.decrement p call s.now) := by
  unfold decrementPendingSync at hd
  split at hd
  · cases hd
  · rename_i hk
    split at hd
    · cases hd
    · obtain ⟨rfl, rfl⟩ := Prod.mk.inj (Option.some.inj hd)
      refine ⟨?_, rfl⟩
      rw [hk]
      congr 1
      omega

theorem decrementPendingSync_eq_none {call : Option CallId}
    (hd : decrementPendingSync s p call = none) :
    s.pendingSync p = none ∨ s.pendingSync p = some 0 := by
  unfold decrementPendingSync at hd
  split at hd
  · exact .inl ‹_›
  · split at hd
    · subst_vars
      exact .inr ‹_›
    · cases hd

theorem parent_closeRequest (status : Status) (error : String) :
    ((closeRequest s r status error).req r).parent = (s.req r).parent := by
  apply req_update fun q => q.parent
  exact fun _ => rfl

/-! ### The chain -/

/-- The outcome under which a request that is due may be finalised. -/
def Fitting (s : State) (r : ReqId) (failed : Bool) : Outcome → Prop
  | .completion => failed = false ∧
      ∀ deadline, (s.req r).queueAckDeadline = some deadline → deadline ≤ s.now
  | .failure _ => failed = true ∨ (s.req r).subtreeFailed = true

section Cascade

variable {finalize : State → ReqId → Outcome → State} {failed : Bool}

/-- The deferred metrics of a publisher are recorded when nothing defers it any longer. -/
theorem via_recordDeferredQueueParentMetrics (hs : (s.req p).subtreeFailed = false)
    (ht : ∀ deadline, (s.req p).queueAckDeadline = some deadline → deadline ≤ s.now)
    (hv : Via env f₀ (s.flow (.due p false) c)) :
    Via env f₀ ((recordDeferredQueueParentMetricsIfNeeded s p).flow (.due p false) c) ∧
      Fitting (recordDeferredQueueParentMetricsIfNeeded s p) p false .completion := by
  unfold recordDeferredQueueParentMetricsIfNeeded
  split_ifs with hd
  · obtain ⟨x, hx, hf⟩ := flow_recordServiceLatencies (s := s) (h := .due p false) (c := c) p
      (s.req p).deferredCallerExtraMs
    have ha := hv.act (.settle p x rfl (by simpa using hs) (by simpa using hd)
      (by simpa using ht) hx)
    rw [flow_update (fun j => { j with deferredQueueFinalize := false
                                       queueAckDeadline := none }) fun _ => rfl, hf]
    refine ⟨ha, rfl, fun deadline hde => ?_⟩
    rw [req_update_eq] at hde
    split at hde
    · cases hde
    · exact ht deadline hde
  · exact ⟨hv, rfl, ht⟩

theorem via_resolveLastChild
    (hfin : ∀ {s o failed}, Fitting s p failed o → Via env f₀ (s.flow (.due p failed) c) →
      Via env f₀ ((finalize s p o).flow .free c))
    (hv : Via env f₀ (s.flow (.due p false) c)) :
    Via env f₀ ((resolveLastChild finalize s p).flow .free c) := by
  unfold resolveLastChild State.getRequest
  by_cases hk : s.run.knows p = true
  · simp only [hk, if_true]
    split_ifs with hs
    · exact hfin (.inr hs) hv
    · have hs : (s.req p).subtreeFailed = false := by simpa using hs
      split
      · rename_i deadline hd
        split_ifs with hlt
        · exact hv.act (.hold p deadline rfl (by simpa using hd) hlt)
        · obtain ⟨hv', hf⟩ := via_recordDeferredQueueParentMetrics hs (fun d' hd' => by
            obtain rfl : deadline = d' := Option.some.inj (hd.symm.trans hd')
            exact not_lt.1 hlt) hv
          exact hfin hf hv'
      · rename_i hd
        obtain ⟨hv', hf⟩ := via_recordDeferredQueueParentMetrics hs (fun d' hd' => by
          rw [hd] at hd'
          cases hd') hv
        exact hfin hf hv'
  · simp only [hk]
    exact hv.act (.unknown p rfl (by simpa using hk))

/-- A report to a parent that does not wait leaves its mark on the child only. -/
theorem via_reportIdle (ha : (s.req r).downstreamAsync = false)
    (hr : (s.req r).callerSyncResolved = false)
    (hd : s.pendingSync p = none ∨ s.pendingSync p = some 0)
    (hv : Via env f₀ (s.flow (.report r p failed) c)) :
    Via env f₀ ((s.update r fun q => { q with callerSyncResolved := true }).flow .free c) := by
  rw [flow_update (fun j => { j with callerSyncResolved := true }) fun _ => rfl]
  exact hv.act (.reportIdle r p failed rfl (by simpa using ha) (by simpa using hr) hd)

/-- A report takes one off the counter of the parent. -/
theorem via_reportCount {n : Nat} (ha : (s.req r).downstreamAsync = false)
    (hr : (s.req r).callerSyncResolved = false)
    (hd : decrementPendingSync (s.update r fun q => { q with callerSyncResolved := true }) p
      ((s.update r fun q => { q with callerSyncResolved := true }).req r).call = some (n, s'))
    (hv : Via env f₀ (s.flow (.report r p failed) c)) :
    Via env f₀ ((if failed then markSubtreeFailed s' p else s').flow (lastCall p n) c) := by
  rw [req_update fun q => q.call] at hd
  swap
  · exact fun _ => rfl
  obtain ⟨hn, rfl⟩ := decrementPendingSync_eq_some hd
  have hact := hv.act (.reportCount r p failed n rfl (by simpa using ha) (by simpa using hr) hn)
  rw [job_flow] at hact
  rw [flow_failSubtree, flow_observe, flow_setPending,
    flow_update (fun j => { j with callerSyncResolved := true }) fun _ => rfl]
  exact hact

theorem via_notifyParentWith
    (hfin : ∀ {s o failed}, Fitting s p failed o → Via env f₀ (s.flow (.due p failed) c) →
      Via env f₀ ((finalize s p o).flow .free c))
    (hv : Via env f₀ (s.flow (.report r p failed) c)) :
    Via env f₀ ((notifyParentWith finalize s r p failed).flow .free c) := by
  unfold notifyParentWith
  split
  · rename_i ha
    exact hv.act (.reportSkip r p failed rfl (.inl (by simpa using ha)))
  rename_i ha
  split
  · rename_i hr
    exact hv.act (.reportSkip r p failed rfl (.inr (by simpa using hr)))
  rename_i hr
  simp only
  split
  · rename_i hd
    have hno := decrementPendingSync_eq_none hd
    exact via_reportIdle (by simpa using ha) (by simpa using hr) hno hv
  · rename_i hd
    have hc := via_reportCount (by simpa using ha) (by simpa using hr) hd hv
    split
    · rename_i hn
      rwa [lastCall, if_neg (Nat.ne_of_gt hn)] at hc
    · rename_i hn
      rw [lastCall, if_pos (Nat.eq_zero_of_not_pos hn)] at hc
      exact via_resolveLastChild hfin hc

variable (hfin : ∀ {s p c o failed}, p < r → Fitting s p failed o →
  Via env f₀ (s.flow (.due p failed) c) → Via env f₀ ((finalize s p o).flow .free c))

include hfin

theorem via_notifyParentOf (parent : Option ReqId) (hp : (s.req r).parent = parent)
    (hv : Via env f₀ (s.flow (reportTo r failed parent) (r :: c))) :
    Via env f₀ (((notifyParentOf finalize s r failed).finalizeRequest env r).flow .free c) := by
  have hr : Via env f₀ ((notifyParentOf finalize s r failed).flow .free (r :: c)) := by
    unfold notifyParentOf
    cases parent with
    | none => simpa only [hp, reportTo] using hv
    | some p =>
      have hlt : p < r := hv.reached.shape.parent_lt r p (by simpa using hp)
      simpa only [hp] using via_notifyParentWith (hfin hlt) hv
  exact hr.act (.finish r c _ _ rfl rfl)

theorem via_completionBody (hfit : Fitting s r failed .completion)
    (hv : Via env f₀ (s.flow (.due r failed) c)) :
    Via env f₀ ((completionBody env finalize s r).flow .free c) := by
  obtain ⟨rfl, ht⟩ := hfit
  unfold completionBody
  simp only
  split
  · rename_i hf
    exact hv.act (.dueFinal r false rfl (by simpa using hf))
  rename_i hf
  split
  · rename_i ha
    rw [flow_finalizeRequest, flow_closeRequest]
    exact (hv.act (.closeAbandoned r rfl (by simpa using hf) (by simpa using ha))).act
      (.finish r c _ _ rfl rfl)
  rename_i hab
  split
  · rename_i hst
    rw [flow_finalizeRequest, flow_update (fun j =>
      { j with desFinalized := true
               completionTime := some (j.completionTime.getD s.now) }) fun _ => rfl]
    exact (hv.act (.closeStale r rfl (by simpa using hf) (by simpa using hst))).act
      (.finish r c _ _ rfl rfl)
  rename_i hst
  split
  · rename_i ha
    rw [flow_observe, flow_observe, flow_closeRequest]
    exact hv.act (.closeTimedOut r rfl (by simpa using hf) (by simpa using hst)
      (by simpa using hab) (by simpa using ha))
  · rename_i ha
    have hc := hv.act (.closeOk r rfl (by simpa using hf) (by simpa using hab)
      (by simpa using hst) (by simpa using ha) (by simpa using ht))
    rw [job_flow] at hc
    refine via_notifyParentOf hfin (s.req r).parent ?_ ?_
    · split
      · split
        · exact parent_closeRequest ..
        · exact parent_closeRequest ..
      · refine Eq.trans ?_ (parent_closeRequest .completed "")
        refine congrArg Job.parent (toJob_eq_of_jobs ?_ r)
        simp
    · split
      · rename_i hto
        split_ifs with hr
        · rw [noteIf_neg (by simp [hto]), noteIf_neg (by simp [hr])] at hc
          rw [flow_closeRequest]
          exact hc
        · rw [noteIf_neg (by simp [hto]), noteIf_pos (by simp [hto, hr])] at hc
          rw [flow_observe, flow_closeRequest]
          exact hc
      · rename_i hto
        rw [noteIf_pos (by simp [hto]), noteIf_neg (by simp [hto])] at hc
        rw [flow_observe, flow_recordTotalLatency, flow_closeRequest]
        exact hc

theorem via_failureBody {reason : String} (hfit : Fitting s r failed (.failure reason))
    (hv : Via env f₀ (s.flow (.due r failed) c)) :
    Via env f₀ ((failureBody env finalize s r reason).flow .free c) := by
  unfold failureBody
  split_ifs with hf
  · exact hv.act (.dueFinal r failed rfl (by simpa using hf))
  · have hc := hv.act (.closeFailed r failed
      (endpointErrorLabels ((recordTotalLatency (closeRequest s r .failed reason) r).req r).labels
        reason) rfl (by simpa [Fitting] using hfit) (by simpa using hf))
    rw [job_flow] at hc
    refine via_notifyParentOf hfin (s.req r).parent ?_ ?_
    · refine Eq.trans ?_ (parent_closeRequest .failed reason)
      refine congrArg Job.parent (toJob_eq_of_jobs ?_ r)
      simp
    · rw [flow_observe, flow_recordFailureSamples, flow_recordTotalLatency, flow_closeRequest]
      exact hc

end Cascade

theorem via_finalizeChain {bound : Nat} (hb : r < bound) (o : Outcome) (hf : Fitting s r failed o)
    (hv : Via env f₀ (s.flow (.due r failed) c)) :
    Via env f₀ ((finalizeChain env bound s r o).flow .free c) := by
  induction bound generalizing s r c o failed with
  | zero => exact absurd hb (Nat.not_lt_zero r)
  | succ bound ih =>
    have hfin : ∀ {s p c o failed}, p < r → Fitting s p failed o →
        Via env f₀ (s.flow (.due p failed) c) →
        Via env f₀ ((finalizeChain env bound s p o).flow .free c) :=
      fun hp hf hv => ih (hp.trans_le (Nat.le_of_lt_succ hb)) _ hf hv
    cases o with
    | completion => exact via_completionBody hfin hf hv
    | failure => exact via_failureBody hfin hf hv

theorem via_finalizeRequestCompletion
    (ht : ∀ deadline, (s.req r).queueAckDeadline = some deadline → deadline ≤ s.now)
    (hv : Via env f₀ (s.flow (.due r false) c)) :
    Via env f₀ ((finalizeRequestCompletion env s r).flow .free c) :=
  via_finalizeChain (Nat.lt_succ_self r) _ ⟨rfl, ht⟩ hv

theorem via_finalizeRequestFailure {reason : String}
    (hw : failed = true ∨ (s.req r).subtreeFailed = true)
    (hv : Via env f₀ (s.flow (.due r failed) c)) :
    Via env f₀ ((finalizeRequestFailure env s r reason).flow .free c) :=
  via_finalizeChain (Nat.lt_succ_self r) _ hw hv

theorem via_notifyParentSyncChildResolved (hv : Via env f₀ (s.flow (.report r p failed) c)) :
    Via env f₀ ((notifyParentSyncChildResolved env s r p failed).flow .free c) :=
  via_notifyParentWith (fun hf hv => via_finalizeChain (Nat.lt_succ_self p) _ hf hv) hv

/-! ### Failures without a child, and before its local work -/

theorem via_propagateSyncPending {t : Time} {o : OverheadData} (hi : ¬ s.rm.ledger.Has o.instanceID)
    (hv : Via env f₀ (s.flow (.event t (.callerOverheadStart o)) c)) :
    Via env f₀ ((propagateSyncPendingFromCallerOverheadFailure env
      (s.observe (.overheadFailed o.spawn false)) o.spawn).flow .free c) := by
  have hlt : o.spawn.parent < s.heap.length := by
    have hf : (s.flow _ c).FitsSpawn env (core o.spawn) := hv.reached.shape.fits_hand rfl
    simpa using hf.parent_lt
  unfold propagateSyncPendingFromCallerOverheadFailure
  split
  · rename_i ha
    exact hv.act (.overheadIdle t o rfl hi (.inl ha))
  rename_i ha
  split
  · rename_i hd
    have hno := decrementPendingSync_eq_none hd
    exact hv.act (.overheadIdle t o rfl hi (.inr hno))
  · rename_i n s' hd
    obtain ⟨hn, hs'⟩ := decrementPendingSync_eq_some hd
    have hc : Via env f₀ ((s'.update o.spawn.parent fun q =>
        { q with subtreeFailed := true }).flow (lastCall o.spawn.parent n) c) := by
      rw [flow_update (fun j => { j with subtreeFailed := true }) fun _ => rfl, hs']
      exact hv.act (.overheadCount t o n rfl hi (by simpa using ha) hn)
    split_ifs with hp
    · rwa [lastCall, if_neg (Nat.ne_of_gt hp)] at hc
    · rw [lastCall, if_pos (Nat.eq_zero_of_not_pos hp)] at hc
      refine via_finalizeRequestFailure (.inr ?_) hc
      rw [req_update_eq, if_pos ⟨rfl, by simpa [hs', State.observe] using hlt⟩]

theorem via_propagateSyncChildFailure (hv : Via env f₀ (s.flow (.failed r .resources) c)) :
    Via env f₀ ((propagateSyncChildFailureFromStartFailure env
      (s.observe (.startFailed r .dropped)) r).flow .free c) := by
  unfold propagateSyncChildFailureFromStartFailure
  split
  · rename_i hp
    exact hv.act (.drop r rfl (.inl (by rw [job_flow]; exact hp)))
  rename_i p hp
  split
  · rename_i ha
    exact hv.act (.drop r rfl (.inr (.inl (by rw [job_flow]; exact ha))))
  rename_i ha
  split
  · rename_i hr
    exact hv.act (.drop r rfl (.inr (.inr (by rw [job_flow]; exact hr))))
  rename_i hr
  have hre : Via env f₀ ((s.observe (.startFailed r .dropped)).flow (.report r p true) c) :=
    hv.act (.dropReport r p rfl (by rw [job_flow]; exact hp))
  have hj : ((s.flow (.failed r .resources) c).job r).parent = some p := by
    rw [job_flow]
    exact hp
  have hlt : p < s.heap.length := by
    simpa using (hv.reached.shape.parent_lt r p hj).trans (lt_of_parent hj)
  simp only
  split
  · rename_i hd
    have hn := decrementPendingSync_eq_none hd
    exact via_reportIdle (by simpa using ha) (by simpa using hr) hn hre
  · rename_i s' hd
    have hc := via_reportCount (by simpa using ha) (by simpa using hr) hd hre
    have hl : s'.heap.length = s.heap.length := by
      obtain ⟨-, rfl⟩ := decrementPendingSync_eq_some hd
      simp [State.observe, State.update]
    split
    · rename_i hpos
      rwa [lastCall, if_neg (Nat.ne_of_gt hpos)] at hc
    · rename_i hpos
      rw [lastCall, if_pos (Nat.eq_zero_of_not_pos hpos)] at hc
      split_ifs with hk
      · refine via_finalizeRequestFailure (.inr ?_) hc
        have hk : s'.run.knows p = true := by
          unfold markSubtreeFailed at hk
          split at hk <;> exact hk
        rw [markSubtreeFailed, if_pos hk, req_update_eq, if_pos ⟨rfl, hl ▸ hlt⟩]
      · exact hc.act (.unknown p rfl (Bool.eq_false_iff.2 hk))

end SimCore.Simd
