import SimCore.Protocol.Shape

/-!
# What the trace records

Every observation on the trace was noted by an action, and says what the action had in its hand and
what it needed. Proofs about the trace go by these reasons and not by the actions.

## Main definitions

* `Noted`: the observations that a turn can add, with what the turn needed

## Main results

* `Turn.noted`: an observation was there before, or the turn noted it
-/

namespace SimCore.Protocol

open Simd Resource

variable {env : Env} {f f' : Flow}

/-- What a turn from `f` to `f'` can note. -/
inductive Noted (env : Env) (f f' : Flow) : Obs → Prop
  | rejected (t : Time) (d : ArrivalData) (hh : f.hand = .event t (.requestArrival d)) :
      Noted env f f' (.rejected f.size)
  | startDeferred (t : Time) (r : ReqId) (i : String) (hh : f.hand = .event t (.requestStart r i)) :
      Noted env f f' (.startDeferred r)
  | startLost (t : Time) (r : ReqId) (i : String) (hh : f.hand = .event t (.requestStart r i)) :
      Noted env f f' (.startLost r)
  | startFailed (r : ReqId) (cause : Cause) (fate : Fate) (hh : f.hand = .failed r cause)
      (hc : cause ≠ .dependency) : Noted env f f' (.startFailed r fate)
  | dependencyFailed (r : ReqId) (fate : Fate) (hh : f.hand = .failed r .dependency) :
      Noted env f f' (.dependencyFailed r fate)
  | retryAfterIsolation (r p : ReqId) (cause : Cause) (hh : f.hand = .failed r cause)
      (hp : (f.job r).parent = some p) (ha : (f.job r).downstreamAsync = false)
      (hr : (f.job r).callerSyncResolved = true) : Noted env f f' (.retryAfterIsolation r)
  /-- A report takes one off the counter of the parent. -/
  | decrement (r p : ReqId) (failed : Bool) (n : Nat) (hh : f.hand = .report r p failed)
      (ha : (f.job r).downstreamAsync = false) (hr : (f.job r).callerSyncResolved = false)
      (hn : f.pending p = some (n + 1)) : Noted env f f' (.decrement p (f.job r).call f.now)
  | decrementOverhead (t : Time) (o : OverheadData) (n : Nat)
      (hh : f.hand = .event t (.callerOverheadStart o)) (ha : o.spawn.isAsync = false)
      (hn : f.pending o.spawn.parent = some (n + 1)) :
      Noted env f f' (.decrement o.spawn.parent o.spawn.call f.now)
  | overheadFailed (t : Time) (o : OverheadData) (retried : Bool)
      (hh : f.hand = .event t (.callerOverheadStart o)) (hi : ¬ f.ledger.Has o.instanceID) :
      Noted env f f' (.overheadFailed o.spawn retried)
  /-- A start fails for lack of resources. -/
  | breakerStart (t : Time) (r : ReqId) (i : String) (hh : f.hand = .event t (.requestStart r i)) :
      Noted env f f' (.breaker r false)
  | breakerTimeout (t : Time) (r p : ReqId) (isAsync : Bool)
      (hh : f.hand = .event t (.downstreamTimeout r p isAsync)) :
      Noted env f f' (.breaker r false)
  /-- A request is closed. -/
  | breakerDue (r : ReqId) (failed success : Bool) (hh : f.hand = .due r failed)
      (hf : (f.job r).desFinalized = false) : Noted env f f' (.breaker r success)
  | heldForAck (r : ReqId) (deadline : Time) (hh : f.hand = .due r false)
      (hd : (f.job r).queueAckDeadline = some deadline) (ht : f.now < deadline) :
      Noted env f f' (.heldForAck r)
  | parentUnknown (r : ReqId) (hh : f.hand = .due r false) (hk : f.run.knows r = false) :
      Noted env f f' (.parentUnknown r)
  | completedAfterAsyncTimeout (r : ReqId) (hh : f.hand = .due r false)
      (ho : ((f.job r).asyncOpTimedOut && (f.job r).downstreamAsync) = true) :
      Noted env f f' (.completedAfterAsyncTimeout r)
  | finalized (r : ReqId) (c : List ReqId) (hh : f.hand = .free) (hc : f.closing = r :: c) :
      Noted env f f' (.finalized r)
  | attempted (t : Time) (k : EventKind) (c : SpawnCore) (hh : f.hand = .event t k)
      (hk : role k = .spawn c) : Noted env f f' (f.attempt env k c)
  | callLost (t : Time) (k : EventKind) (d : SpawnData) (hh : f.hand = .event t k)
      (hk : role k = .spawn (core d)) : Noted env f f' (.callLost d)
  | workDone (t : Time) (r : ReqId) (hh : f.hand = .event t (.requestComplete r)) :
      Noted env f f' (.workDone r f.now)
  | acknowledged (t : Time) (r : ReqId) (del : Delivery) (sh : Shard)
      (hh : f.hand = .event t (.requestComplete r)) (hd : (f.job r).delivery = some del)
      (hs : f.shards del.shard = some sh) : Noted env f f' (.released r del.shard)
  | completedAfterAckTimeout (t : Time) (r : ReqId) (hh : f.hand = .event t (.requestComplete r))
      (ha : (f.job r).brokerAckTimedOut = true) : Noted env f f' (.completedAfterAckTimeout r)
  | publishAck (r : ReqId) (phase : Phase) (t : Time) (hh : f.hand = .done r phase)
      (hp : phase ≠ .deferred) : Noted env f f' (.publishAck r t)
  | finalizeDeferred (r : ReqId) (deadline : Time) (hh : f.hand = .done r .opened) :
      Noted env f f' (.finalizeDeferred r deadline)
  | ackPassed (t : Time) (r : ReqId) (n : Nat) (hh : f.hand = .event t (.asyncParentFinalize r))
      (hn : f.pending r = some (n + 1)) : Noted env f f' (.ackPassed r)
  | dispatched (t : Time) (k : EventKind) (ref : ShardRef) (sh sh' : Shard) (m : QueuedMessage)
      (hh : f.hand = .event t k) (hk : role k = .dequeue ref) (hs : f.shards ref = some sh)
      (hp : sh.tryPopForDispatch = some (m, sh')) :
      Noted env f f' (.dispatched f.size ⟨ref, m⟩ f.now)
  | consumerTargetInvalid (t : Time) (k : EventKind) (ref : ShardRef) (hh : f.hand = .event t k)
      (hk : role k = .dequeue ref) : Noted env f f' (.consumerTargetInvalid ref)
  | consumerParentMissing (t : Time) (k : EventKind) (ref : ShardRef) (hh : f.hand = .event t k)
      (hk : role k = .dequeue ref) : Noted env f f' (.consumerParentMissing ref)
  | consumerNoInstance (t : Time) (k : EventKind) (ref : ShardRef) (hh : f.hand = .event t k)
      (hk : role k = .dequeue ref) : Noted env f f' (.consumerNoInstance ref)
  | ackTimeoutIgnored (t : Time) (k : EventKind) (r : ReqId) (del : Delivery)
      (hh : f.hand = .event t k) (hk : role k = .ack r del) (hs : (f.job r).stage ≠ .worked) :
      Noted env f f' (.ackTimeoutIgnored r)
  /-- A consumer misses its deadline. -/
  | missed (t : Time) (k : EventKind) (r : ReqId) (del : Delivery) (sh : Shard) (o : Obs)
      (hh : f.hand = .event t k) (hk : role k = .ack r del)
      (hp : (f.job r).status = .processing) (hs : f.shards del.shard = some sh)
      (ho : o = .released r del.shard ∨ o = .ackTimeoutAfterWork r ∧ (f.job r).stage = .worked ∨
        o = .requeued r (del.message.redeliveries + 1) f.now ∧
          del.message.redeliveries + 1 ≤ redeliveryLimit env del.shard sh ∨
        o = .deadLettered r f.now ∧
          redeliveryLimit env del.shard sh < del.message.redeliveries + 1) : Noted env f f' o
  | busyDrain (i : String) (hh : f.hand = .free) : Noted env f f' (.busyDrain i)

/-- An observation was there before, or the turn noted it. -/
theorem Turn.noted (h : Turn env f f') {o : Obs} (ho : o ∈ f'.trace) :
    o ∈ f.trace ∨ Noted env f f' o := by
  -- Every action notes a few observations on top of the trace.
  have add {a : Obs} {trace : Multiset Obs} (ha : Noted env f f' a)
      (ht : o ∈ trace → o ∈ f.trace ∨ Noted env f f' o) (hf : f'.trace = a ::ₘ trace) :
      o ∈ f.trace ∨ Noted env f f' o := by
    rw [hf, Multiset.mem_cons] at ho
    exact ho.elim (fun h => .inr (h ▸ ha)) ht
  have one {a : Obs} (ha : Noted env f f' a) (hf : f'.trace = a ::ₘ f.trace) :
      o ∈ f.trace ∨ Noted env f f' o :=
    add ha .inl hf
  have two {a b : Obs} (ha : Noted env f f' a) (hb : Noted env f f' b)
      (hf : f'.trace = a ::ₘ b ::ₘ f.trace) : o ∈ f.trace ∨ Noted env f f' o :=
    add ha (fun h => (Multiset.mem_cons.1 h).elim (fun h => .inr (h ▸ hb)) .inl) hf
  rcases h with h | h <;> cases h
  case reject t d _ _ _ hh _ _ => exact one (.rejected t d hh) rfl
  case startDefer t r i _ _ hh _ _ _ _ => exact one (.startDeferred t r i hh) rfl
  case startLost t r i hh => exact one (.startLost t r i hh) rfl
  case startMissing t r i _ _ hh _ | startRefuse t r i _ _ _ hh =>
    exact one (.breakerStart t r i hh) rfl
  case retry r p cause _ _ hh hp ha _ _ _ =>
    have ho : o = cause.obs r .retried ∨ o = .retryAfterIsolation r ∧
        (f.job r).callerSyncResolved = true ∨ o ∈ f.trace := by
      simp at ho
      grind -ring -linarith
    rcases ho with rfl | ⟨rfl, hr⟩ | ho
    · cases cause with
      | dependency => exact .inr (.dependencyFailed r _ hh)
      | localFailure => exact .inr (.startFailed r _ _ hh (by decide))
      | resources => exact .inr (.startFailed r _ _ hh (by decide))
    · exact .inr (.retryAfterIsolation r p cause hh hp ha hr)
    · exact .inl ho
  case giveUp r cause hh hc =>
    cases cause with
    | dependency => exact one (.dependencyFailed r _ hh) rfl
    | localFailure => exact one (.startFailed r _ _ hh (by decide)) rfl
    | resources => exact absurd rfl hc
  case drop r hh _ | dropReport r _ hh _ =>
    exact one (.startFailed r _ _ hh (by decide)) rfl
  case reportCount r p failed n hh ha hr hn =>
    exact one (.decrement r p failed n hh ha hr hn) rfl
  case timeoutRetry t _ r p _ hh _ _ _ _ _ | timeoutReport t r p hh _ _
    | timeoutAbandon t _ r p _ hh _ _ _ _ | timeoutGiveUp t r p hh _ =>
    exact one (.breakerTimeout t r p _ hh) rfl
  case overheadRetry t _ o' _ hh hi _ _ _ _ | overheadIdle t o' hh hi _ =>
    exact one (.overheadFailed t o' _ hh hi) rfl
  case overheadCount t o' n hh hi ha hn =>
    exact two (.decrementOverhead t o' n hh ha hn) (.overheadFailed t o' _ hh hi) rfl
  case hold r deadline hh hd ht =>
    exact one (.heldForAck r deadline hh hd ht) rfl
  case unknown r hh hk => exact one (.parentUnknown r hh hk) rfl
  case closeOk r hh hf _ _ _ _ =>
    have ho : o = .breaker r true ∨ o = .breaker r false ∨ o ∈ f.trace := by
      simp at ho
      grind -ring -linarith
    rcases ho with rfl | rfl | ho
    · exact .inr (.breakerDue r _ _ hh hf)
    · exact .inr (.breakerDue r _ _ hh hf)
    · exact .inl ho
  case closeTimedOut r hh hf _ _ ho' =>
    exact two (.completedAfterAsyncTimeout r hh ho') (.breakerDue r _ _ hh hf) rfl
  case closeFailed r failed _ hh _ hf =>
    exact one (.breakerDue r failed _ hh hf) rfl
  case finish r c _ _ hh hc => exact one (.finalized r c hh hc) rfl
  case spawnStart t k c _ hh hk _ | spawnFail t k c hh hk =>
    exact one (.attempted t k c hh hk) rfl
  case spawnLost t k c d hh hk hd =>
    exact two (.callLost t k d hh (hd ▸ hk)) (.attempted t k c hh hk) rfl
  case spawnNone t k _ d hh hk hd =>
    exact one (.callLost t k d hh (hd ▸ hk)) rfl
  case complete t r hh _ _ => exact one (.workDone t r hh) rfl
  case completeAck t r del sh hh _ hd hs =>
    exact two (.acknowledged t r del sh hh hd hs) (.workDone t r hh) rfl
  case completeLate t r hh ha =>
    exact two (.completedAfterAckTimeout t r hh ha) (.workDone t r hh) rfl
  case promise r phase t hh hp => exact one (.publishAck r phase t hh hp) rfl
  case defer r deadline hh _ _ =>
    exact one (.finalizeDeferred r deadline hh) rfl
  case ackPassed t r n hh hn => exact one (.ackPassed t r n hh hn) rfl
  case dispatch t k ref sh sh' m _ _ _ hh hk hs hp _ =>
    exact one (.dispatched t k ref sh sh' m hh hk hs hp) rfl
  case popInvalid t k ref _ _ _ hh hk _ _ =>
    exact one (.consumerTargetInvalid t k ref hh hk) rfl
  case popParentless t k ref _ _ _ hh hk _ _ =>
    exact one (.consumerParentMissing t k ref hh hk) rfl
  case popNoInstance t k ref _ _ _ hh hk _ _ =>
    exact one (.consumerNoInstance t k ref hh hk) rfl
  case ackIgnore t k r del hh hk _ =>
    by_cases hs : (f.job r).stage = .worked
    · exact .inl (by simpa [hs] using ho)
    · exact one (.ackTimeoutIgnored t k r del hh hk hs) (by simp [hs])
  case ackRequeue =>
    simp at ho
    grind -ring -linarith [Noted.missed]
  case ackDead =>
    simp at ho
    grind -ring -linarith [Noted.missed]
  case scale hh _ _ _ _ =>
    simp only [Flow.rescale_trace, Multiset.mem_add, Multiset.mem_coe, List.mem_map] at ho
    rcases ho with ⟨i, -, rfl⟩ | ho
    · exact .inr (.busyDrain i hh)
    · exact .inl ho
  all_goals exact .inl (by simpa using ho)

end SimCore.Protocol
