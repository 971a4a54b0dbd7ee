import SimCore.Protocol.Events

/-!
# Static invariants of the protocol

What a turn never changes, and what holds of the protocol state because of that: a request is
younger than its parent, an event agrees with the requests and calls it names, a request is an
attempt of a logical call, a broker consumer, or neither, and its depths are those of its parent
plus one hop.

## Main definitions

* `Extends`: the protocol state has grown
* `Shape`: the static invariants

## Main results

* `Turn.extends`: every turn only extends the protocol state
* `Turn.trace_le`: no turn forgets an observation
* `Reached.shape`: the static invariants hold in every reached protocol state
-/

namespace SimCore.Protocol

open Simd Resource Interaction List

variable {env : Env} {f f' : Flow} {r p x : ReqId} {k : EventKind} {sh : Shard} {cause : Cause}

/-! ### What a turn never changes -/

/-- The part of a job that never changes. -/
structure SameOrigin (j j' : Job) : Prop where
  parent : j'.parent = j.parent
  serviceName : j'.serviceName = j.serviceName
  endpoint : j'.endpoint = j.endpoint
  arrivalTime : j'.arrivalTime = j.arrivalTime
  traceDepth : j'.traceDepth = j.traceDepth
  asyncDepth : j'.asyncDepth = j.asyncDepth
  downstreamAsync : j'.downstreamAsync = j.downstreamAsync
  retryAttempt : j'.retryAttempt = j.retryAttempt
  delivery : j'.delivery = j.delivery
  call : j'.call = j.call
  onBehalf : j'.onBehalf = j.onBehalf
  edge : j'.edge = j.edge

namespace SameOrigin

theorem refl (j : Job) : SameOrigin j j :=
  ⟨rfl, rfl, rfl, rfl, rfl, rfl, rfl, rfl, rfl, rfl, rfl, rfl⟩

theorem trans {j₁ j₂ j₃ : Job} (h₁ : SameOrigin j₁ j₂) (h₂ : SameOrigin j₂ j₃) :
    SameOrigin j₁ j₃ := by
  cases h₁
  cases h₂
  constructor <;> simp only [*]

theorem modify {g : Job → Job} (hg : ∀ j, SameOrigin j (g j)) (jobs : List Job) (r x : Nat) :
    SameOrigin (jobAt jobs x) (jobAt (jobs.modify r g) x) := by
  rw [jobAt_modify]
  split
  · exact hg _
  · exact refl _

theorem append {jobs : List Job} {x : Nat} (hx : x < jobs.length) (j : Job) :
    SameOrigin (jobAt jobs x) (jobAt (jobs ++ [j]) x) := by
  rw [jobAt_append, if_neg (Nat.ne_of_lt hx)]
  exact refl _

end SameOrigin

/-- The protocol state has grown. -/
structure Extends (f f' : Flow) : Prop where
  size_le : f.size ≤ f'.size
  origin : ∀ r < f.size, SameOrigin (f.job r) (f'.job r)
  calls : ∀ (k : CallId) (p : ReqId), f.calls[k]? = some p → f'.calls[k]? = some p

section

variable (h : Turn env f f')
include h

theorem Turn.size_le : f.size ≤ f'.size := by
  rcases h with h | h <;> cases h
  all_goals simp

theorem Turn.sameOrigin (hr : r < f.size) : SameOrigin (f.job r) (f'.job r) := by
  rcases h with h | h <;> cases h
  case reportCount =>
    refine .trans (.modify (fun j => ?_) ..) (.modify (fun j => ?_) ..)
    all_goals constructor <;> rfl
  case accept | reject | spawnStart | spawnFail | spawnLost | dispatch =>
    exact .append hr _
  case startDefer | startRun | startLost | startFail | startMissing | startRefuse | retry
    | reportIdle | timeoutRetry | timeoutReport | timeoutAbandon | timeoutGiveUp | overheadCount
    | settle | closeOk | closeAbandoned | closeStale | closeTimedOut | closeFailed | complete
    | completeAck | completeLate | defer | ackDone | ackRequeue | ackDead =>
    refine .modify (fun j => ?_) ..
    constructor <;> rfl
  all_goals exact .refl _

theorem Turn.calls_mono {k : CallId} (hk : f.calls[k]? = some p) : f'.calls[k]? = some p := by
  rcases h with h | h <;> cases h
  case await =>
    rw [getElem?_eq_some_iff] at hk
    simp [getElem?_append, hk.1, hk.2]
  all_goals simpa using hk

theorem Turn.extends : Extends f f' :=
  ⟨h.size_le, fun _ => h.sameOrigin, fun _ _ => h.calls_mono⟩

theorem Turn.trace_le : f.trace ≤ f'.trace := by
  rcases h with h | h <;> cases h
  case scale => exact Multiset.le_add_left _ _
  all_goals
    repeat' first
      | refine le_trans ?_ (Multiset.le_cons_self _ _)
      | simp only [Flow.take_trace, Flow.close_trace, Flow.noteIf_trace]
      | split
      | exact le_rfl

theorem Turn.mem_trace {o : Obs} (ho : o ∈ f.trace) : o ∈ f'.trace :=
  Multiset.mem_of_le h.trace_le ho

end

/-- What a new request can be: an ingress request, the attempt of a spawn, or a consumer. -/
inductive Origin (f : Flow) (j : Job) : Prop
  | root (svc path : String)
      (h : SameOrigin { serviceName := svc, endpoint := path, arrivalTime := f.now } j)
  | child (t : Time) (k : EventKind) (c : SpawnCore) (hh : f.hand = .event t k)
      (hk : role k = .spawn c) (h : SameOrigin (c.job f.now .pending .queued none) j)
  | consumer (ref : ShardRef) (sh : Shard) (m : QueuedMessage) (svc path : String)
      (hs : f.shards ref = some sh) (hm : m ∈ sh.messages)
      (h : SameOrigin (consumerJob ⟨ref, m⟩ f.now svc path "") j)

/-- A turn creates at most one request. -/
theorem Turn.origin (h : Turn env f f') (hr : f.size ≤ r) (hr' : r < f'.size) :
    r = f.size ∧ Origin f (f'.job r) := by
  have heq : r = f.size := by
    rcases h with h | h <;> cases h
    all_goals
      simp at hr hr'
      first
        | exact le_antisymm (Nat.le_of_lt_succ hr') hr
        | exact le_antisymm hr' hr
        | exact absurd hr' (not_lt.2 hr)
  refine ⟨heq, ?_⟩
  subst heq
  rcases h with h | h <;> cases h
  case accept d _ _ _ _ _ _ | reject d _ _ _ _ _ _ =>
    refine .root d.serviceID d.endpointPath ?_
    constructor <;> simp
  case spawnStart t k c _ hh hk _ | spawnFail t k c hh hk | spawnLost t k c _ hh hk _ =>
    refine .child t k c hh hk ?_
    constructor <;> simp [SpawnCore.job]
  case dispatch ref sh _ m svc path _ _ _ hs hp _ =>
    obtain ⟨-, _, hc, -⟩ := Shard.tryPopForDispatch_eq_some hp
    refine .consumer ref sh m svc path hs (by simp [hc]) ?_
    constructor <;> simp [consumerJob]
  all_goals simp at hr'

theorem default_origin (hr : f.size ≤ r) : f.job r = {} := jobAt_of_length_le hr

/-- What holds of the origin of every old request and of every new one holds of all. -/
theorem Turn.forall_origin (h : Turn env f f') {Q : Nat → Job → Prop}
    (hQ : ∀ r j j', SameOrigin j j' → Q r j → Q r j') (hd : ∀ r, Q r {})
    (hold : ∀ r, r < f.size → Q r (f.job r))
    (hro : ∀ svc path, Q f.size { serviceName := svc, endpoint := path, arrivalTime := f.now })
    (hn : ∀ t k c, f.hand = .event t k → role k = .spawn c →
      Q f.size (c.job f.now .pending .queued none))
    (hc : ∀ ref sh m svc path, f.shards ref = some sh → m ∈ sh.messages →
      Q f.size (consumerJob ⟨ref, m⟩ f.now svc path "")) (r : ReqId) : Q r (f'.job r) := by
  by_cases hr' : r < f'.size
  · by_cases hr : r < f.size
    · exact hQ _ _ _ (h.sameOrigin hr) (hold r hr)
    · obtain ⟨rfl, ho⟩ := h.origin (not_lt.1 hr) hr'
      cases ho with
      | root svc path ho => exact hQ _ _ _ ho (hro svc path)
      | child t k c hh hk ho => exact hQ _ _ _ ho (hn t k c hh hk)
      | consumer ref sh m svc path hs hm ho => exact hQ _ _ _ ho (hc ref sh m svc path hs hm)
  · rw [default_origin (not_lt.1 hr')]
    exact hd r

/-! ### Static invariants -/

/-- The requests that the hand names exist. -/
def HandShape (env : Env) (f : Flow) : Hand → Prop
  | .free => True
  | .event _ _ => True
  | .failed r _ => r < f.size
  | .done r _ => r < f.size
  | .due r _ => r < f.size
  | .report r p _ => (f.job r).parent = some p
  | .fanout d _ _ _ => f.Fits env (.publish d.parent d.traceDepth d.asyncDepth)

/-- The static invariants of the protocol. -/
structure Shape (env : Env) (f : Flow) : Prop where
  /-- A request is younger than its parent. -/
  parent_lt : ∀ r p, (f.job r).parent = some p → p < r
  /-- Pending events agree with the requests and calls they name. -/
  fits : ∀ k, f.Pending k → f.Fits env (role k)
  /-- An ingress request has no depth. -/
  root : ∀ r, (f.job r).parent = none → (f.job r).traceDepth = 0 ∧ (f.job r).asyncDepth = 0
  /-- The depths of a request are those of its parent plus one hop. -/
  depth : ∀ r p, (f.job r).parent = some p →
    f.FitsDepth env p ((f.job r).downstreamAsync || (f.job r).onBehalf.isSome)
      (f.job r).traceDepth (f.job r).asyncDepth
  /-- An attempt of a declared call goes to its target. -/
  edge : ∀ r rc, (f.job r).edge = some rc → ∃ p, (f.job r).parent = some p ∧
    rc.serviceID = (f.job r).serviceName ∧ rc.path = (f.job r).endpoint ∧
    (usesAsyncBroker env.scenario rc || rc.call.isAsync) = (f.job r).downstreamAsync ∧
    rc ∈ downstreamEdges env.scenario (f.job p).serviceName (f.job p).endpoint
  /-- A request with a parent is an attempt of a declared call or works on behalf of a message. -/
  declared : ∀ r p, (f.job r).parent = some p → (f.job r).edge.isNone = (f.job r).onBehalf.isSome
  /-- A request with a parent is asynchronous, an attempt of a logical call, or a consumer. -/
  reason : ∀ r p, (f.job r).parent = some p → (f.job r).downstreamAsync = true ∨
    (f.job r).call.isSome = true ∨ (f.job r).onBehalf.isSome = true
  /-- An attempt of a logical call is a synchronous child of the owner of the call. -/
  call : ∀ r k, (f.job r).call = some k → ∃ p, (f.job r).parent = some p ∧
    f.calls[k]? = some p ∧ (f.job r).downstreamAsync = false ∧ (f.job r).delivery = none ∧
    (f.job r).onBehalf = none ∧ 0 ≤ (f.job r).retryAttempt ∧
    brokerService env (f.job r).serviceName = false
  /-- A consumer is a synchronous child of the publisher, and no attempt of a logical call. -/
  delivery : ∀ r del, (f.job r).delivery = some del →
    (f.job r).parent = some del.message.parentRequestID ∧ (f.job r).downstreamAsync = false ∧
    (f.job r).call = none ∧ (f.job r).onBehalf = some del ∧
    (f.job r).traceDepth = del.message.metadata.traceDepth ∧
    (f.job r).asyncDepth = del.message.metadata.asyncDepth ∧
    booked del.shard del.message = del.shard
  /-- Only consumers miss acknowledgement deadlines. -/
  timedOut : ∀ r, (f.job r).brokerAckTimedOut = true → (f.job r).delivery ≠ none
  /-- Only asynchronous attempts are abandoned. -/
  abandoned : ∀ r, (f.job r).asyncAttemptAbandoned = true → (f.job r).downstreamAsync = true
  /-- The requests that the hand names exist. -/
  hand : HandShape env f f.hand
  /-- Queued messages name an existing publisher and are booked under their own shard. -/
  message : ∀ ref sh m, f.shards ref = some sh → m ∈ sh.messages →
    f.Fits env (.publish m.parentRequestID m.metadata.traceDepth m.metadata.asyncDepth) ∧
      booked ref m = ref

/-- A request exists if something holds of it that does not hold of a missing one. -/
theorem lt_of_job {Q : Job → Prop} (h : Q (f.job r)) (hd : ¬ Q {}) : r < f.size := by
  by_contra hr
  exact hd (default_origin (not_lt.1 hr) ▸ h)

theorem lt_of_parent (h : (f.job r).parent = some p) : r < f.size :=
  lt_of_job (Q := (·.parent = some p)) h nofun

theorem lt_of_delivery {del : Delivery} (h : (f.job r).delivery = some del) : r < f.size :=
  lt_of_job (Q := (·.delivery = some del)) h nofun

theorem allowed_zero (env : Env) : Allowed env 0 0 :=
  fun _ _ => ⟨fun h => h.le, fun h => h.le⟩

namespace Flow

theorem FitsDepth.extends {p : ReqId} {isAsync : Bool} {td ad : Int}
    (h : f.FitsDepth env p isAsync td ad) (hp : p < f.size) (he : Extends f f') :
    f'.FitsDepth env p isAsync td ad := by
  have ho := he.origin p hp
  exact ⟨by rw [h.trace, ho.traceDepth], by rw [h.async, ho.asyncDepth], h.allowed⟩

theorem FitsSpawn.extends {c : SpawnCore} (h : f.FitsSpawn env c) (he : Extends f f') :
    f'.FitsSpawn env c where
  parent_lt := lt_of_lt_of_le h.parent_lt he.size_le
  depth := h.depth.extends h.parent_lt he
  edge rc hrc := by
    have ho := he.origin _ h.parent_lt
    rw [ho.serviceName, ho.endpoint]
    exact h.edge rc hrc
  declared := h.declared
  reason := h.reason
  owner k hk := ⟨he.calls _ _ (h.owner k hk).1, (h.owner k hk).2⟩

theorem FitsSpawn.again {c : SpawnCore} (h : f.FitsSpawn env c) {n : Int}
    (hn : 0 ≤ c.retryAttempt → 0 ≤ n) : f.FitsSpawn env { c with retryAttempt := n } :=
  { h with
    owner := fun k hk => by
      obtain ⟨ho, ha, hb, hle, hs⟩ := h.owner k hk
      exact ⟨ho, ha, hb, hn hle, hs⟩ }

theorem Fits.extends {ρ : Role} (h : f.Fits env ρ) (he : Extends f f') : f'.Fits env ρ := by
  cases ρ
  case timeout r _ _ =>
    have ho := he.origin r (lt_of_parent h.1)
    exact ⟨ho.parent.trans h.1, ho.downstreamAsync.trans h.2⟩
  case ack r _ => exact ((he.origin r (lt_of_delivery h)).delivery).trans h
  case spawn => exact FitsSpawn.extends h he
  case overhead => exact FitsSpawn.extends h he
  case publish => exact ⟨lt_of_lt_of_le h.1 he.size_le, h.2.extends h.1 he⟩
  case start | complete | finalize => exact lt_of_lt_of_le h he.size_le
  all_goals trivial

end Flow

namespace Shape

theorem fits_hand (hs : Shape env f) {t : Time} {k : EventKind} (hh : f.hand = .event t k) :
    f.Fits env (role k) :=
  hs.fits k ⟨t, .inl hh⟩

/-- The limits on trace expansion allow every request. -/
theorem allowed (hs : Shape env f) (r : ReqId) :
    Allowed env (f.job r).traceDepth (f.job r).asyncDepth := by
  cases hp : (f.job r).parent with
  | none =>
    rw [(hs.root r hp).1, (hs.root r hp).2]
    exact allowed_zero env
  | some p => exact (hs.depth r p hp).allowed

variable {r : ReqId} {isAsync : Bool}

theorem fits_retry (hs : Shape env f) {p : ReqId} (hp : (f.job r).parent = some p)
    (ha : (f.job r).downstreamAsync = isAsync) :
    f.FitsSpawn env ((f.job r).retryCore p isAsync) where
  parent_lt := lt_trans (hs.parent_lt r p hp) (lt_of_parent hp)
  depth := ha ▸ hs.depth r p hp
  edge rc hrc := by
    obtain ⟨p', hp', hsvc, hpa, hm, hmem⟩ := hs.edge r rc hrc
    cases hp.symm.trans hp'
    exact ⟨hsvc, hpa, hm.trans ha, hmem⟩
  declared := hs.declared r p hp
  reason := ha ▸ hs.reason r p hp
  owner k hk := by
    obtain ⟨_, hp', hc, ha', -, hb, hn, hsvc⟩ := hs.call r k hk
    cases hp.symm.trans hp'
    exact ⟨hc, ha ▸ ha', hb, Int.add_nonneg hn (by decide), hsvc⟩

/-- A call that the limits allow leads to an allowed request. -/
theorem fits_depth (hs : Shape env f) {rc : ResolvedCall} (h : Selected env (f.job r) rc isAsync) :
    f.FitsDepth env r isAsync ((f.job r).traceDepth + 1)
      (if isAsync then (f.job r).asyncDepth + 1 else (f.job r).asyncDepth) := by
  refine ⟨rfl, rfl, fun lim hl => ?_⟩
  have hw := h.within
  have hm := h.mode
  have hold := hs.allowed r lim hl
  unfold withinLimits at hw
  rw [Bool.or_comm] at hm
  simp only [hl, hm, Bool.and_eq_true, Bool.not_eq_true', Bool.and_eq_false_iff,
    decide_eq_false_iff_not, not_lt] at hw
  obtain ⟨_, ha⟩ := hw
  refine ⟨fun hp => ?_, fun hp => ?_⟩
  · omega
  · cases isAsync
    · simpa using hold.2 hp
    · simp at ha ⊢
      omega

theorem fits_edge (hs : Shape env f) {rc : ResolvedCall} {call : Option CallId} (hr : r < f.size)
    (h : Selected env (f.job r) rc isAsync) (he : Extends f f') (hc : Calls f' r isAsync call) :
    f'.FitsSpawn env ((f.job r).edgeCore r rc isAsync call) where
  parent_lt := lt_of_lt_of_le hr he.size_le
  depth := by
    have := (hs.fits_depth h).extends hr he
    simpa [Job.edgeCore] using this
  edge rc' hrc' := by
    cases hrc'
    have ho := he.origin r hr
    refine ⟨rfl, rfl, h.mode, ?_⟩
    rw [show (Job.edgeCore (f.job r) r rc isAsync call).parent = r from rfl, ho.serviceName,
      ho.endpoint]
    exact h.declared
  declared := rfl
  reason := by
    cases hc with
    | async => exact .inl rfl
    | sync => exact .inr (.inl rfl)
  owner k hk := by
    cases hc with
    | async => cases hk
    | sync _ hk' =>
      cases hk
      refine ⟨hk', rfl, rfl, le_rfl, ?_⟩
      have hm := h.mode
      simp only [Bool.or_eq_false_iff, usesAsyncBroker, usesQueueBroker, usesTopicBroker,
        edgeHasKind] at hm
      unfold brokerService
      rw [show (Job.edgeCore (f.job r) r rc false (some k)).serviceID = rc.serviceID from rfl]
      cases hsvc : env.scenario.service? rc.serviceID with
      | none => rfl
      | some => simp_all

end Shape

theorem loose_fits (hk : loose k = true) : f.Fits env (role k) := by
  cases k <;> cases hk <;> trivial

/-- What an action issues agrees with the requests and calls it names. -/
theorem Issued.fits {t : Time} (h : Issued env f f' t k) (hs : Shape env f) (he : Extends f f') :
    f'.Fits env (role k) := by
  have overhead : ∀ {o : OverheadData} {t k}, (t, k) ∈ o.events → f'.FitsSpawn env (core o.spawn) →
      f'.Fits env (role k) := by
    intro o t k hk ho
    simp only [OverheadData.events, mem_cons, Prod.mk.injEq, not_mem_nil, or_false] at hk
    obtain ⟨-, rfl⟩ | ⟨-, rfl⟩ := hk
    · exact ho
    · exact ho
  have hha := hs.hand
  cases h with
  | loose _ _ hk => exact loose_fits hk
  | start _ _ hn => exact hn
  | restart _ _ _ _ hh => exact (hs.fits_hand hh).extends he
  | complete _ _ r _ hh =>
    have hr : r < f.size := hs.fits_hand hh
    exact lt_of_lt_of_le hr he.size_le
  | retry _ r p isAsync _ hr hd =>
    rw [role, hd]
    have hr : (f.job r).parent = some p ∧ (f.job r).downstreamAsync = isAsync := by
      rcases hr with hr | ⟨t, hh⟩
      · exact hr
      · exact hs.fits_hand hh
    exact Flow.FitsSpawn.extends (hs.fits_retry hr.1 hr.2) he
  | overheadRetry _ _ o _ hh hd =>
    have hf : f.FitsSpawn env (core o.spawn) := hs.fits_hand hh
    rw [role, hd]
    exact (hf.again fun hn => Int.add_nonneg hn (by decide)).extends he
  | call _ r _ _ _ _ _ hh hsel hc hd =>
    have hr : r < f.size := by simpa [HandShape, hh] using hha
    rw [role, hd]
    exact hs.fits_edge hr hsel he hc
  | overhead _ _ r _ _ _ _ _ hh hsel hc hd hr _ _ _ hk =>
    have hr : r < f.size := by simpa [HandShape, hh] using hha
    exact overhead hk (hd ▸ hs.fits_edge hr hsel he hc)
  | retryOverhead _ _ _ _ _ hh hd _ _ _ _ hk =>
    exact overhead hk (hd ▸ Flow.FitsSpawn.extends (hs.fits_hand hh) he)
  | overheadCall _ _ o _ hh hd =>
    have hf : f.FitsSpawn env (core o.spawn) := hs.fits_hand hh
    rw [role, hd]
    exact (hf.again fun _ => le_rfl).extends he
  | publish _ _ r _ _ hh hsel hk =>
    have hr : r < f.size := by simpa [HandShape, hh] using hha
    rw [hk]
    exact Flow.Fits.extends ⟨hr, hs.fits_depth hsel⟩ he
  | spawnPublish _ _ k _ c hh hk hb hk' =>
    have hf := hs.fits_hand hh
    rw [hk] at hf
    have hf : f.FitsSpawn env c := hf
    have hno : c.call = none := by
      cases hcall : c.call with
      | none => rfl
      | some k => exact absurd (hb.symm.trans (hf.owner k hcall).2.2.2.2) (by decide)
    -- a logical call never publishes, so the spawn counts as one more asynchronous hop
    have ha : (c.isAsync || c.onBehalf.isSome) = true := by
      rcases hf.reason with h | h | h
      · simp [h]
      · simp [hno] at h
      · simp [h]
    rw [hk']
    exact Flow.Fits.extends ⟨hf.parent_lt, ha ▸ hf.depth⟩ he
  | timeout _ _ _ _ _ _ hj => exact hj
  | ack _ _ _ _ hj =>
    rw [role_ackEvent]
    exact hj
  | finalize _ r _ hh =>
    have hr : r < f.size := by simpa [HandShape, hh] using hha
    exact lt_of_lt_of_le hr he.size_le

theorem Turn.fits (h : Turn env f f') (hs : Shape env f) (hk : f'.Pending k) :
    f'.Fits env (role k) := by
  obtain ⟨t, hk⟩ := hk
  rcases h.pending_cases hk with hk | hk | ⟨hk, -⟩
  · exact (hs.fits k ⟨t, hk⟩).extends h.extends
  · exact hk.fits hs h.extends
  · rw [role_of_external hk]
    trivial

/-! ### Messages -/

theorem mem_enqueue {m x : QueuedMessage} (h : x ∈ (sh.enqueue m).2.messages) :
    x = m ∨ x ∈ sh.messages := by
  obtain ⟨-, he⟩ | ⟨-, he⟩ | ⟨_, _, hm, -, -, -, he⟩ := sh.enqueue_cases m
  · rw [he] at h
    exact .inr h
  · rw [he] at h
    rcases mem_append.1 h with h | h
    · exact .inr h
    · exact .inl (mem_singleton.1 h)
  · rw [he] at h
    rcases mem_append.1 h with h | h
    · exact .inr (hm ▸ mem_cons_of_mem _ h)
    · exact .inl (mem_singleton.1 h)

@[simp] theorem delivered_messages (ref : ShardRef) (sh : Shard) (m : QueuedMessage) :
    (delivered ref sh m).messages = (sh.enqueue m).2.messages := by
  unfold delivered
  cases ref
  · rfl
  · simp only
    split
    · simp
    · split <;> simp

@[simp] theorem acknowledged_messages (del : Delivery) (sh : Shard) :
    (acknowledged del sh).messages = sh.messages := by
  unfold acknowledged Shard.consumerFinished
  split <;> simp

@[simp] theorem armed_messages (now : Time) (ref : ShardRef) (sh : Shard) :
    (armed env now ref sh).messages = sh.messages := by
  unfold armed
  split <;> rfl

@[simp] theorem purged_messages (now : Time) (ref : ShardRef) (sh : Shard) :
    (purged env now ref sh).messages =
      sh.messages.drop (sh.expired now (retentionOf env ref)).length := by
  unfold purged
  rw [Shard.foldl_record_eq]
  rfl

/-- What a message in a shard can be: it was there before, it is new, or it comes back from a
consumer that missed its deadline. -/
inductive Arrived (f : Flow) (ref : ShardRef) (m : QueuedMessage) : Prop
  | old (sh : Shard) (hs : f.shards ref = some sh) (hm : m ∈ sh.messages)
  | enqueued (t : Time) (d : PublishData) (topic : String)
      (hh : f.hand = .event t (.queueEnqueue d)) (href : ref = .queue d.brokerID topic)
      (hm : Posted f.now f.nextMsg d m)
  | published (d : PublishData) (t g : String) (q : Nat) (gs : List String)
      (hh : f.hand = .fanout d t q (g :: gs)) (href : ref = .topic d.brokerID t q g)
      (hm : Posted f.now f.nextMsg d m) (hq : m.metadata.partition = q)
      (ho : m.topicOffset + 1 = f.watermark d.brokerID t q)
  | requeued (t : Time) (k : EventKind) (r : ReqId) (del : Delivery)
      (hh : f.hand = .event t k) (hk : role k = .ack r del) (href : ref = del.shard)
      (hm : m = { del.message with redeliveries := del.message.redeliveries + 1 })

theorem update_eq_some {g : ShardRef → Option Shard} {ref ref' : ShardRef} {sh' : Shard}
    (h : Function.update g ref' (some sh') ref = some sh) :
    ref = ref' ∧ sh' = sh ∨ ref ≠ ref' ∧ g ref = some sh := by
  by_cases hr : ref = ref'
  · subst hr
    rw [Function.update_self] at h
    exact .inl ⟨rfl, Option.some.inj h⟩
  · rw [Function.update_of_ne hr] at h
    exact .inr ⟨hr, h⟩

section

variable (h : Turn env f f')
include h

theorem Turn.arrived {ref : ShardRef} {m : QueuedMessage}
    (hs : f'.shards ref = some sh) (hm : m ∈ sh.messages) : Arrived f ref m := by
  -- a shard whose messages are among those of the shard that was there before
  have old : ∀ {ref' : ShardRef} {sh₀ sh' : Shard},
      Function.update f.shards ref' (some sh') ref = some sh → f.shards ref' = some sh₀ →
      (∀ x ∈ sh'.messages, x ∈ sh₀.messages) → Arrived f ref m := by
    intro ref' sh₀ sh' hs hs₀ hsub
    rcases update_eq_some hs with ⟨rfl, rfl⟩ | ⟨-, hs⟩
    · exact .old sh₀ hs₀ (hsub m hm)
    · exact .old sh hs hm
  have popped : ∀ {sh₀ sh' : Shard} {m' : QueuedMessage}, sh₀.tryPopForDispatch = some (m', sh') →
        m' ∈ sh₀.messages ∧ ∀ x ∈ sh'.messages, x ∈ sh₀.messages := by
    intro sh₀ sh' m' hp
    obtain ⟨-, _, hc, rfl⟩ := Shard.tryPopForDispatch_eq_some hp
    rw [hc]
    exact ⟨mem_cons_self, fun x hx => mem_cons_of_mem _ hx⟩
  have stored : ∀ {ref' : ShardRef} {sh₀ : Shard} {m' : QueuedMessage}, f.Finds ref' sh₀ →
      (f.store env ref' sh₀ m').shards ref = some sh →
      (ref = ref' → m = m' → Arrived f ref m) → Arrived f ref m := by
    intro ref' sh₀ m' hs' hs hn
    rcases update_eq_some hs with ⟨rfl, rfl⟩ | ⟨-, hs⟩
    · have hm : m ∈ (sh₀.enqueue m').2.messages := by split at hm <;> simpa using hm
      rcases mem_enqueue hm with rfl | hm
      · exact hn rfl rfl
      · rcases hs' with hs' | ⟨-, hf⟩
        · exact .old sh₀ hs' hm
        · simp [hf.messages] at hm
    · exact .old sh hs hm
  rcases h with h | h <;> cases h
  case completeAck hs' => exact old hs hs' (by simp)
  case ackDead hs' _ | countDead hs' =>
    exact old hs hs' fun x hx => hx
  case deadLetter hs' =>
    exact old hs hs' fun x hx => by simpa [Shard.noteDLQ] using hx
  case expire hs' _ =>
    refine old hs hs' fun x hx => ?_
    rw [armed_messages, purged_messages] at hx
    exact mem_of_mem_drop hx
  case dispatch hs' hp _ | popInvalid hs' hp | popParentless hs' hp =>
    exact old hs hs' (popped hp).2
  case popNoInstance hs' hp =>
    refine old hs hs' fun x hx => ?_
    rw [armed_messages] at hx
    rcases mem_cons.1 hx with rfl | hx
    · exact (popped hp).1
    · exact (popped hp).2 x hx
  case ackRequeue t k r del sh₀ hh hk _ _ hs' _ =>
    rcases update_eq_some hs with ⟨rfl, rfl⟩ | ⟨-, hs⟩
    · rw [armed_messages] at hm
      rcases mem_cons.1 hm with rfl | hm
      · exact .requeued t k r del hh hk rfl rfl
      · exact .old sh₀ hs' hm
    · exact .old sh hs hm
  case enqueue t d topic _ _ hh hs' hpo =>
    exact stored hs' hs fun hr hm => .enqueued t d topic hh hr (hm ▸ hpo)
  case deliver d topic q g gs _ _ hh hs' hpo ho hq =>
    refine stored hs' hs fun hr hm => ?_
    subst hm
    exact .published d topic g q gs hh hr hpo hq ho
  all_goals exact .old sh hs hm

/-! ### Flags and the hand -/

/-- Only an acknowledgement deadline makes a consumer miss it. -/
theorem Turn.timesOut (hold : ¬ (f.job r).brokerAckTimedOut = true)
    (hr : (f'.job r).brokerAckTimedOut = true) :
    ∃ t k del, f.hand = .event t k ∧ role k = .ack r del := by
  rcases h with h | h <;> cases h
  case ackRequeue t k r' del _ hh hk _ _ _ _ | ackDead t k r' del _ hh hk _ _ _ _ =>
    by_cases heq : r = r'
    · subst heq
      exact ⟨t, k, del, hh, hk⟩
    · simp_all
  all_goals
    simp [Job.drawn, Job.begun, SpawnCore.job, consumerJob] at hr hold
    grind -ring -linarith

/-- Only the timeout of an asynchronous call abandons an attempt. -/
theorem Turn.abandons (hold : ¬ (f.job r).asyncAttemptAbandoned = true)
    (hr : (f'.job r).asyncAttemptAbandoned = true) :
    ∃ t p, f.hand = .event t (.downstreamTimeout r p true) := by
  rcases h with h | h <;> cases h
  case timeoutAbandon t _ r' p _ hh _ _ _ _ =>
    by_cases heq : r = r'
    · subst heq
      exact ⟨t, p, hh⟩
    · simp_all
  all_goals
    simp [Job.drawn, Job.begun, SpawnCore.job, consumerJob] at hr hold
    grind -ring -linarith

theorem Turn.handShape (hs : Shape env f) : HandShape env f' f'.hand := by
  have hha := hs.hand
  have he := h.extends
  rcases h with h | h <;> cases h
  case startFail r _ _ hh | startMissing r _ _ _ hh _ | startRefuse r _ _ _ _ hh | complete r hh _ _
    | completeAck r _ _ hh _ _ _ | ackDone r _ hh _ _ =>
    have hr : r < f.size := hs.fits_hand hh
    simpa [HandShape] using hr
  case spawnFail => simp [HandShape]
  case giveUp hh _ | finishWork hh | measure hh _ | defer hh _ _ | settle hh _ _ _ _ =>
    simpa [HandShape, hh] using hha
  case dropReport hp => simpa [HandShape] using hp
  case timeoutReport hh _ _ =>
    have hp := ((hs.fits_hand hh).extends he).1
    simpa [HandShape] using hp
  case reportCount r p _ _ hh _ _ _ =>
    have hp : (f.job r).parent = some p := by simpa [HandShape, hh] using hha
    have hlt := lt_trans (hs.parent_lt r p hp) (lt_of_parent hp)
    simp only [Flow.take_hand, lastCall]
    split
    · simpa [HandShape] using hlt
    · trivial
  case overheadCount o _ hh _ _ _ =>
    have hf : f.FitsSpawn env (core o.spawn) := hs.fits_hand hh
    have hlt := hf.parent_lt
    simp only [Flow.take_hand, lastCall]
    split
    · simpa [HandShape] using hlt
    · trivial
  case closeOk r _ _ _ _ _ _ | closeFailed r _ _ _ _ _ =>
    cases hp : (f.job r).parent with
    | none => simp [HandShape, reportTo]
    | some =>
      have hp' := (he.origin r (lt_of_parent hp)).parent.trans hp
      simp only [Flow.take_hand, reportTo, HandShape]
      exact hp'
  case publish d _ _ hh =>
    have hp : f.Fits env (.publish d.parent d.traceDepth d.asyncDepth) := hs.fits_hand hh
    exact hp.extends he
  case deliver d _ _ _ _ _ _ hh _ _ _ _ =>
    rw [hh] at hha
    exact Flow.Fits.extends (ρ := .publish d.parent d.traceDepth d.asyncDepth) hha he
  case finish hh _ => simp [HandShape, hh]
  case callAsync | publishAsync | overheadAsync | promise => simp_all [HandShape]
  case drain | schedule | scale | sweep => simp [*, HandShape]
  all_goals simp [HandShape]

end

/-! ### Reached protocol states -/

theorem Flow.Initial.shape (h : f.Initial env) : Shape env f := by
  have hj : ∀ r, f.job r = {} := fun r => default_origin (by simp [h.jobs])
  constructor
  case fits =>
    rintro k ⟨t, ht | ht⟩
    · simp [h.hand] at ht
    · simp [h.events] at ht
  case hand => simp [h.hand, HandShape]
  case message => simp [h.shards]
  all_goals simp [hj]

/-- The static invariants that depend on the origin of a request only. -/
structure Born (env : Env) (f : Flow) (r : ReqId) (j : Job) : Prop where
  parent_lt : ∀ p, j.parent = some p → p < r
  root : j.parent = none → j.traceDepth = 0 ∧ j.asyncDepth = 0
  depth : ∀ p, j.parent = some p →
    f.FitsDepth env p (j.downstreamAsync || j.onBehalf.isSome) j.traceDepth j.asyncDepth
  edge : ∀ rc, j.edge = some rc → ∃ p, j.parent = some p ∧ rc.serviceID = j.serviceName ∧
    rc.path = j.endpoint ∧
    (usesAsyncBroker env.scenario rc || rc.call.isAsync) = j.downstreamAsync ∧
    rc ∈ downstreamEdges env.scenario (f.job p).serviceName (f.job p).endpoint
  declared : ∀ p, j.parent = some p → j.edge.isNone = j.onBehalf.isSome
  reason : ∀ p, j.parent = some p → j.downstreamAsync = true ∨ j.call.isSome = true ∨
    j.onBehalf.isSome = true
  call : ∀ k, j.call = some k → ∃ p, j.parent = some p ∧ f.calls[k]? = some p ∧
    j.downstreamAsync = false ∧ j.delivery = none ∧ j.onBehalf = none ∧ 0 ≤ j.retryAttempt ∧
    brokerService env j.serviceName = false
  delivery : ∀ del, j.delivery = some del → j.parent = some del.message.parentRequestID ∧
    j.downstreamAsync = false ∧ j.call = none ∧ j.onBehalf = some del ∧
    j.traceDepth = del.message.metadata.traceDepth ∧
    j.asyncDepth = del.message.metadata.asyncDepth ∧ booked del.shard del.message = del.shard

namespace Born

theorem same {r : ReqId} {j j' : Job} (h : SameOrigin j j') (hj : Born env f r j) :
    Born env f r j' := by
  cases h
  constructor <;> simp only [*]
  exacts [hj.parent_lt, hj.root, hj.depth, hj.edge, hj.declared, hj.reason, hj.call, hj.delivery]

theorem old (hs : Shape env f) (he : Extends f f') {r : ReqId} (hr : r < f.size) :
    Born env f' r (f.job r) where
  parent_lt := hs.parent_lt r
  root := hs.root r
  depth p hp := (hs.depth r p hp).extends (lt_trans (hs.parent_lt r p hp) hr) he
  edge rc hrc := by
    obtain ⟨p, hp, hsvc, hpa, hm, _⟩ := hs.edge r rc hrc
    have ho := he.origin p (lt_trans (hs.parent_lt r p hp) hr)
    exact ⟨p, hp, hsvc, hpa, hm, by rwa [ho.serviceName, ho.endpoint]⟩
  declared := hs.declared r
  reason := hs.reason r
  call k hk := by
    obtain ⟨p, hp, hc, hre⟩ := hs.call r k hk
    exact ⟨p, hp, he.calls k p hc, hre⟩
  delivery := hs.delivery r

theorem child {c : SpawnCore} (h : f.FitsSpawn env c) (he : Extends f f') :
    Born env f' f.size (c.job f.now .pending .queued none) := by
  have h' := h.extends he
  constructor <;> simp only [SpawnCore.job]
  case parent_lt => simpa using h.parent_lt
  case depth => simpa using h'.depth
  case edge => exact fun rc hrc => ⟨c.parent, rfl, h'.edge rc hrc⟩
  case declared => exact fun _ _ => h.declared
  case reason => exact fun _ _ => h.reason
  case call =>
    intro k hk
    obtain ⟨hc, ha, hb, hn, hs⟩ := h'.owner k hk
    exact ⟨c.parent, rfl, hc, ha, trivial, hb, hn, hs⟩
  all_goals simp

theorem consumer (hs : Shape env f) (he : Extends f f') {ref : ShardRef} {sh : Shard}
    {m : QueuedMessage} (hsh : f.shards ref = some sh) (hm : m ∈ sh.messages) (svc path : String) :
    Born env f' f.size (consumerJob ⟨ref, m⟩ f.now svc path "") := by
  obtain ⟨hf, hb⟩ := hs.message ref sh m hsh hm
  constructor <;> simp only [consumerJob]
  case parent_lt => simpa using hf.1
  case depth => simpa using (hf.extends he).2
  case delivery =>
    rintro _ ⟨⟩
    simpa using hb
  all_goals simp

end Born

theorem Turn.born (h : Turn env f f') (hs : Shape env f) (r : ReqId) :
    Born env f' r (f'.job r) := by
  have he := h.extends
  refine h.forall_origin (Q := Born env f') (fun _ _ _ => .same) (fun _ => ?_) (fun _ => .old hs he)
    (fun _ _ => ?_) (fun t k c hh hk => ?_)
      (fun _ _ _ svc path hsh hm => .consumer hs he hsh hm svc path) r
  · constructor <;> simp
  · constructor <;> simp
  · have hf := hs.fits_hand hh
    rw [hk] at hf
    exact .child hf he

theorem Turn.shape (h : Turn env f f') (hs : Shape env f) : Shape env f' := by
  have he := h.extends
  constructor
  case parent_lt => exact fun r => (h.born hs r).parent_lt
  case fits => exact fun k hk => h.fits hs hk
  case root => exact fun r => (h.born hs r).root
  case depth => exact fun r => (h.born hs r).depth
  case edge => exact fun r => (h.born hs r).edge
  case declared => exact fun r => (h.born hs r).declared
  case reason => exact fun r => (h.born hs r).reason
  case call => exact fun r => (h.born hs r).call
  case delivery => exact fun r => (h.born hs r).delivery
  case timedOut =>
    intro r hr
    by_cases hr₀ : (f.job r).brokerAckTimedOut = true
    · have hlt := lt_of_job (Q := (·.brokerAckTimedOut = true)) hr₀ nofun
      rw [(he.origin r hlt).delivery]
      exact hs.timedOut r hr₀
    · obtain ⟨t, k, del, hh, hk⟩ := h.timesOut hr₀ hr
      have hf := (hs.fits_hand hh).extends he
      rw [hk] at hf
      exact Option.ne_none_iff_exists'.2 ⟨del, hf⟩
  case abandoned =>
    intro r hr
    by_cases hr₀ : (f.job r).asyncAttemptAbandoned = true
    · have hlt := lt_of_job (Q := (·.asyncAttemptAbandoned = true)) hr₀ nofun
      rw [(he.origin r hlt).downstreamAsync]
      exact hs.abandoned r hr₀
    · obtain ⟨t, p, hh⟩ := h.abandons hr₀ hr
      exact ((hs.fits_hand hh).extends he).2
  case hand => exact h.handShape hs
  case message =>
    intro ref sh m hsh hm
    have posted : ∀ {now id d} {m : QueuedMessage}, Posted now id d m →
        f.Fits env (.publish d.parent d.traceDepth d.asyncDepth) →
        f'.Fits env (.publish m.parentRequestID m.metadata.traceDepth m.metadata.asyncDepth) := by
      intro now id d m hpo hf
      rw [hpo.parent, hpo.traceDepth, hpo.asyncDepth]
      exact hf.extends he
    cases h.arrived hsh hm with
    | old sh₀ hs₀ hm₀ =>
      obtain ⟨hf, hb⟩ := hs.message ref sh₀ m hs₀ hm₀
      exact ⟨hf.extends he, hb⟩
    | enqueued _ _ _ hh href hpo =>
      exact ⟨posted hpo (hs.fits_hand hh), by rw [href]; rfl⟩
    | published _ _ _ _ _ hh href hpo hq =>
      have hf := hs.hand
      rw [hh] at hf
      exact ⟨posted hpo hf, by rw [href, ← hq]; rfl⟩
    | requeued _ _ r del hh hk href hmeq =>
      have hf := hs.fits_hand hh
      rw [hk] at hf
      obtain ⟨hp, ha, -, hbe, htd, had, _⟩ := hs.delivery r del hf
      have hlt := hs.parent_lt r _ hp
      have hde := hs.depth r _ hp
      rw [ha, hbe, htd, had] at hde
      subst href hmeq
      refine ⟨Flow.Fits.extends (ρ := .publish ..) ⟨lt_trans hlt (lt_of_parent hp), hde⟩ he, ?_⟩
      cases hd : del.shard <;> simp_all [booked]

theorem Reached.shape (h : Reached env f) : Shape env f := by
  induction h with
  | start h => exact h.shape
  | turn _ h ih => exact h.shape ih

/-! ### What comes into the hand -/

@[simp] theorem lastCall_eq_due {n : Nat} {failed : Bool} :
    lastCall p n = .due x failed ↔ n = 0 ∧ p = x ∧ failed = false := by
  unfold lastCall
  split <;> simp_all [eq_comm]

@[simp] theorem lastCall_ne_failed {n : Nat} : lastCall p n ≠ .failed x cause := by
  unfold lastCall
  split <;> simp

@[simp] theorem reportTo_ne_due {p : Option ReqId} {a b : Bool} : reportTo r a p ≠ .due x b := by
  cases p <;> simp [reportTo]

@[simp] theorem reportTo_ne_failed {p : Option ReqId} {a : Bool} :
    reportTo r a p ≠ .failed x cause := by
  cases p <;> simp [reportTo]

theorem Turn.due_cases (h : Turn env f f') {failed : Bool} (hx : f'.hand = .due x failed) :
    f.hand = .due x failed ∨ (failed = true ∧ ∃ cause, cause ≠ .resources ∧
        f.hand = .failed x cause) ∨ failed = false ∧ f.pending x = some 1 ∨
      f.hand = .done x .counted ∨
      failed = false ∧ ∃ t, f.hand = .event t (.asyncParentFinalize x) := by
  rcases h with h | h <;> cases h
  all_goals simp at hx
  all_goals simp_all

theorem Turn.failed_cases (h : Turn env f f') (hx : f'.hand = .failed x cause) :
    f.hand = .failed x cause ∨ (∃ t i, f.hand = .event t (.requestStart x i)) ∨
      x = f.size ∧ ∃ t k c, f.hand = .event t k ∧ role k = .spawn c := by
  rcases h with h | h <;> cases h
  all_goals simp at hx
  all_goals simp_all

end SimCore.Protocol
