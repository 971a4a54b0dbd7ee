import SimCore.Protocol.Shape

/-!
# What a turn does to a request

Every turn leaves a request as it is, or changes it in one of a few ways, each with a reason. Proofs
about single requests go by these ways and not by the actions.

## Main definitions

* `JobStep`: the ways in which a turn can change a request
* `NewJob`: what a new request can be

## Main results

* `Turn.jobStep`, `Turn.newJob`
-/

namespace SimCore.Protocol

open Simd Resource

variable {env : Env} {f f' : Flow} {x : ReqId}

/-- The ways in which a turn from `f` to `f'` can change a request. -/
inductive JobStep (env : Env) (f f' : Flow) (x : ReqId) : Job → Prop
  | same : JobStep env f f' x (f.job x)
  | startDefer (t : Time) (i : String) (cache : Option Bool) (res : Reservation)
      (hh : f.hand = .event t (.requestStart x i)) (hd : (f.job x).cpuDeferred = none)
      (hn : f.now < res.start) (hc : res.start ≤ res.finish) (ho : .startDeferred x ∈ f'.trace) :
      JobStep env f f' x { (f.job x).drawn i cache with
        stage := .queued, cpuDeferred := some (res.start, res.finish), reservation := some res }
  | startRun (t : Time) (i : String) (cache : Option Bool) (cpuMs mb : ℚ)
      (fresh : Option Reservation) (hh : f.hand = .event t (.requestStart x i))
      (ha : f.Admits x cpuMs fresh) (hmb : 0 ≤ mb) :
      JobStep env f f' x { (f.job x).begun i cache fresh with
        stage := .running, status := .processing, allocatedCPUMs := some cpuMs
        allocatedMemoryMB := some mb }
  | startLost (t : Time) (i : String) (hh : f.hand = .event t (.requestStart x i)) :
      JobStep env f f' x { f.job x with stage := .idle }
  | startFail (t : Time) (i : String) (cache : Option Bool) (cause : Cause)
      (hh : f.hand = .event t (.requestStart x i)) (hh' : f'.hand = .failed x cause) :
      JobStep env f f' x { (f.job x).drawn i cache with stage := .idle, status := .failed }
  | startRefuse (t : Time) (i : String) (cache : Option Bool) (fresh : Option Reservation)
      (hh : f.hand = .event t (.requestStart x i)) (hh' : f'.hand = .failed x .resources) :
      JobStep env f f' x { (f.job x).begun i cache fresh with stage := .idle, status := .failed }
  | retry (p : ReqId) (cause : Cause) (hh : f.hand = .failed x cause)
      (hp : (f.job x).parent = some p) (ha : (f.job x).downstreamAsync = false) :
      JobStep env f f' x { f.job x with callerSyncResolved := true }
  | report (p : ReqId) (failed : Bool) (hh : f.hand = .report x p failed)
      (ha : (f.job x).downstreamAsync = false) (hr : (f.job x).callerSyncResolved = false) :
      JobStep env f f' x { f.job x with callerSyncResolved := true }
  /-- A call of the request is over, and may have failed. -/
  | subtree (failed : Bool) (n : Nat) (hn : f.pending x = some (n + 1)) :
      JobStep env f f' x { f.job x with subtreeFailed := failed }
  | timeoutRetry (t : Time) (p : ReqId) (hh : f.hand = .event t (.downstreamTimeout x p false))
      (hr : (f.job x).callerSyncResolved = false) (hs : (f.job x).status ≠ .completed) :
      JobStep env f f' x { f.job x with callerSyncResolved := true, syncWaitTimedOut := true }
  | timeoutReport (t : Time) (p : ReqId) (hh : f.hand = .event t (.downstreamTimeout x p false))
      (hr : (f.job x).callerSyncResolved = false) (hs : (f.job x).status ≠ .completed)
      (hh' : f'.hand = .report x p true) :
      JobStep env f f' x { f.job x with syncWaitTimedOut := true }
  | timeoutAbandon (t : Time) (p : ReqId) (hh : f.hand = .event t (.downstreamTimeout x p true))
      (hs : (f.job x).status ≠ .completed ∧ (f.job x).status ≠ .failed) :
      JobStep env f f' x { f.job x with asyncAttemptAbandoned := true }
  | timeoutGiveUp (t : Time) (p : ReqId) (hh : f.hand = .event t (.downstreamTimeout x p true))
      (hs : (f.job x).status ≠ .completed ∧ (f.job x).status ≠ .failed) :
      JobStep env f f' x { f.job x with asyncOpTimedOut := true }
  /-- The deferred metrics of a publisher are recorded. -/
  | settle (hh : f.hand = .due x false ∨ ∃ t, f.hand = .event t (.asyncParentFinalize x)) :
      JobStep env f f' x { f.job x with deferredQueueFinalize := false, queueAckDeadline := none }
  | closeDone (hh : f.hand = .due x false) (hf : (f.job x).desFinalized = false) :
      JobStep env f f' x { f.job x with
        desFinalized := true, status := .completed, completionTime := some f.now }
  | closeStale (hh : f.hand = .due x false) (hf : (f.job x).desFinalized = false)
      (hs : (f.job x).status = .failed) :
      JobStep env f f' x { f.job x with
        desFinalized := true, completionTime := some ((f.job x).completionTime.getD f.now) }
  | closeFailed (failed : Bool) (hh : f.hand = .due x failed)
      (hf : (f.job x).desFinalized = false) :
      JobStep env f f' x { f.job x with
        desFinalized := true, status := .failed, completionTime := some f.now }
  | complete (t : Time) (hh : f.hand = .event t (.requestComplete x)) :
      JobStep env f f' x { f.job x with stage := .worked }
  | defer (deadline : Time) (hh : f.hand = .done x .opened) (ht : f.now ≤ deadline) :
      JobStep env f f' x { f.job x with
        deferredQueueFinalize := true, queueAckDeadline := some deadline }
  /-- A consumer misses its acknowledgement deadline. -/
  | ackTimeout (t : Time) (k : EventKind) (del : Delivery) (hh : f.hand = .event t k)
      (hk : role k = .ack x del) (hp : (f.job x).status = .processing) :
      JobStep env f f' x { f.job x with status := .failed, brokerAckTimedOut := true }

/-- A turn changes a request in one of the listed ways. -/
theorem Turn.jobStep (h : Turn env f f') (hs : Shape env f) (hx : x < f.size) :
    JobStep env f f' x (f'.job x) := by
  -- The action changes the request `r`, or it leaves the request alone.
  have only {r : ReqId} {g : Job → Job} (hj : f'.jobs = f.jobs.modify r g)
      (hr : JobStep env f f' r (g (f.job r))) : JobStep env f f' x (f'.job x) := by
    have hjob : f'.job x = if x = r then g (f.job x) else f.job x := by
      simp only [Flow.job, hj, jobAt_modify]
      simp [show x < f.jobs.length from hx]
    rw [hjob]
    split_ifs with hxr
    · exact hxr ▸ hr
    · exact .same
  have fresh {j : Job} (hj : f'.jobs = f.jobs ++ [j]) : JobStep env f f' x (f'.job x) := by
    have hjob : f'.job x = f.job x := by
      simp [hj, if_neg (Nat.ne_of_lt hx)]
    exact hjob ▸ .same
  rcases h with h | h <;> cases h
  case accept | reject | spawnStart | spawnFail | spawnLost | dispatch =>
    exact fresh rfl
  case startDefer t _ i cache res hh hd _ hn hc =>
    exact only rfl (.startDefer t i cache res hh hd hn hc (by simp))
  case startRun t _ _ i cache cpuMs mb res hh _ ha hmb _ =>
    exact only rfl (.startRun t i cache cpuMs mb res hh ha hmb)
  case startLost t _ i hh => exact only rfl (.startLost t i hh)
  case startFail t _ i cache hh => exact only rfl (.startFail t i cache _ hh rfl)
  case startMissing t _ i cache _ hh _ => exact only rfl (.startFail t i cache _ hh rfl)
  case startRefuse t _ i cache res _ hh => exact only rfl (.startRefuse t i cache res hh rfl)
  case retry p cause _ _ hh hp ha _ _ _ => exact only rfl (.retry p cause hh hp ha)
  case reportIdle p failed hh ha hr _ => exact only rfl (.report p failed hh ha hr)
  case reportCount r p failed n hh ha hr hn =>
    -- the report concerns the child and its parent, which are different requests
    have hha := hs.hand
    rw [hh] at hha
    have hne : r ≠ p := fun heq => absurd (hs.parent_lt r p hha) (heq ▸ lt_irrefl _)
    have hlt : x < f.jobs.length := hx
    simp only [Flow.job, Flow.take_jobs, Flow.failSubtree_jobs, Flow.note_jobs,
      Flow.setPending_jobs, Flow.setJob_jobs, jobAt_modify, List.length_modify, hlt, and_true]
    by_cases hxr : x = r
    · subst hxr
      simp only [hne, if_true, if_false]
      exact .report p failed hh ha hr
    · by_cases hxp : x = p
      · subst hxp
        simp only [hxr, if_true, if_false]
        exact .subtree _ n hn
      · simp only [hxr, hxp, if_false]
        exact .same
  case timeoutRetry t _ _ p _ hh hr hst _ _ _ => exact only rfl (.timeoutRetry t p hh hr hst)
  case timeoutReport t _ p hh hr hst => exact only rfl (.timeoutReport t p hh hr hst rfl)
  case timeoutAbandon t _ _ p _ hh hst _ _ _ => exact only rfl (.timeoutAbandon t p hh hst)
  case timeoutGiveUp t _ p hh hst => exact only rfl (.timeoutGiveUp t p hh hst)
  case overheadCount n _ _ _ hn => exact only rfl (.subtree true n hn)
  case settle hh _ _ _ _ => exact only rfl (.settle (.inl hh))
  case closeOk hh hf _ _ _ _ | closeAbandoned hh hf _ | closeTimedOut hh hf _ _ _ =>
    exact only rfl (.closeDone hh hf)
  case closeStale hh hf hst => exact only rfl (.closeStale hh hf hst)
  case closeFailed failed _ hh _ hf => exact only rfl (.closeFailed failed hh hf)
  case complete t _ hh _ _ | completeAck t _ _ _ hh _ _ _ | completeLate t _ hh _ =>
    exact only rfl (.complete t hh)
  case defer deadline hh _ ht => exact only rfl (.defer deadline hh ht)
  case ackDone t _ _ hh _ _ => exact only rfl (.settle (.inr ⟨t, hh⟩))
  case ackRequeue t k _ del _ hh hk _ hp _ _ | ackDead t k _ del _ hh hk _ hp _ _ =>
    exact only rfl (.ackTimeout t k del hh hk hp)
  all_goals exact .same

/-- What a new request can be. -/
inductive NewJob (env : Env) (f f' : Flow) : Job → Prop
  | root (d : ArrivalData) (t : Time) (i : String) (hh : f.hand = .event t (.requestArrival d)) :
      NewJob env f f' { serviceName := d.serviceID, endpoint := d.endpointPath, arrivalTime := f.now
                        instanceID := some i, stage := .queued }
  | rejected (d : ArrivalData) (t : Time) (i : Option String)
      (hh : f.hand = .event t (.requestArrival d)) :
      NewJob env f f' { serviceName := d.serviceID, endpoint := d.endpointPath, arrivalTime := f.now
                        instanceID := i, status := .failed }
  | started (t : Time) (k : EventKind) (c : SpawnCore) (i : String) (hh : f.hand = .event t k)
      (hk : role k = .spawn c) : NewJob env f f' (c.job f.now .pending .queued (some i))
  | failed (t : Time) (k : EventKind) (c : SpawnCore) (hh : f.hand = .event t k)
      (hk : role k = .spawn c) : NewJob env f f' (c.job f.now .failed .idle none)
  | consumer (t : Time) (k : EventKind) (ref : ShardRef) (sh sh' : Shard) (m : QueuedMessage)
      (svc path i : String) (hh : f.hand = .event t k) (hk : role k = .dequeue ref)
      (hs : f.shards ref = some sh) (hp : sh.tryPopForDispatch = some (m, sh')) :
      NewJob env f f' (consumerJob ⟨ref, m⟩ f.now svc path i)

/-- A request that did not exist before is new, or still does not exist. -/
theorem Turn.newJob (h : Turn env f f') (hx : f.size ≤ x) :
    f'.job x = {} ∨ x = f.size ∧ NewJob env f f' (f'.job x) := by
  have fresh {j : Job} (hjo : f'.jobs = f.jobs ++ [j]) (hj : NewJob env f f' j) :
      f'.job x = {} ∨ x = f.size ∧ NewJob env f f' (f'.job x) := by
    have hjob : f'.job x = if x = f.size then j else f.job x := by
      simp only [Flow.job, hjo, jobAt_append]
    rw [hjob]
    split_ifs with hxs
    · exact .inr ⟨hxs, hj⟩
    · exact .inl (default_origin hx)
  rcases h with h | h <;> cases h
  case accept t d _ i hh _ _ _ => exact fresh rfl (.root d t i hh)
  case reject t d _ _ i hh _ _ => exact fresh rfl (.rejected d t i hh)
  case spawnStart t k c i hh hk _ => exact fresh rfl (.started t k c i hh hk)
  case spawnFail t k c hh hk | spawnLost t k c _ hh hk _ =>
    exact fresh rfl (.failed t k c hh hk)
  case dispatch t k ref sh sh' m svc path i hh hk hsh hp _ =>
    exact fresh rfl (.consumer t k ref sh sh' m svc path i hh hk hsh hp)
  all_goals exact .inl (default_origin (by simpa using hx))

/-- What every way to change a request keeps, and every new request has, holds of all requests. -/
theorem Turn.forall_job (h : Turn env f f') (hs : Shape env f) {Q : Job → Prop} (x : ReqId)
    (hst : ∀ j, JobStep env f f' x j → Q j) (hn : x = f.size → ∀ j, NewJob env f f' j → Q j)
    (hd : f.job x = {} → Q {}) : Q (f'.job x) := by
  rcases lt_or_ge x f.size with hx | hx
  · exact hst _ (h.jobStep hs hx)
  · rcases h.newJob hx with hj | ⟨hsi, hj⟩
    · exact hj ▸ hd (default_origin hx)
    · exact hn hsi _ hj

end SimCore.Protocol
