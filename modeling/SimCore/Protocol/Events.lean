import SimCore.Protocol.Act

/-!
# The events of the protocol

How many pending events there are of a kind, and which events an action can issue. Actions only add
events, the latest first; only a move takes one off the queue.

## Main definitions

* `Flow.count`: how many pending events are of a kind, the one in hand included
* `Issued`: the events that an action can issue, and why

## Main results

* `Act.issued`: every action only issues such events
* `Turn.pending_cases`: a pending event was pending before, has just been issued, or comes from
  outside
-/

namespace SimCore.Protocol

open Simd Resource Interaction List

variable {env : Env} {f f' : Flow} {now t : Time} {ref : ShardRef} {sh : Shard} {k : EventKind}

/-! ### Counting pending events -/

section Counting

variable (P : EventKind → Prop) [DecidablePred P]

/-- How many events of a list are of a kind. -/
def tally (es : List (Time × EventKind)) : Nat :=
  es.countP fun e => P e.2

@[simp] theorem tally_nil : tally P [] = 0 := rfl

@[simp] theorem tally_cons (t : Time) (k : EventKind) (es : List (Time × EventKind)) :
    tally P ((t, k) :: es) = tally P es + if P k then 1 else 0 := by
  simp [tally, countP_cons]

@[simp] theorem tally_append (es es' : List (Time × EventKind)) :
    tally P (es ++ es') = tally P es + tally P es' := by
  simp [tally]

@[simp] theorem tally_ite (c : Prop) [Decidable c] (es es' : List (Time × EventKind)) :
    tally P (if c then es else es') = if c then tally P es else tally P es' := by
  split <;> rfl

theorem tally_pos {es : List (Time × EventKind)} : 0 < tally P es ↔ ∃ t k, (t, k) ∈ es ∧ P k := by
  simp [tally, countP_pos_iff]

namespace Hand

/-- How many events in hand are of a kind. -/
def tally : Hand → Nat
  | .event _ k => if P k then 1 else 0
  | _ => 0

attribute [simp] tally.eq_1 tally.eq_2

theorem tally_of_idle {h : Hand} (hi : h.idle = true) : h.tally P = 0 := by
  cases h <;> simp_all [idle, tally]

@[simp] theorem idle_lastCall (p : ReqId) (n : Nat) : (lastCall p n).idle = true := by
  unfold lastCall
  split <;> rfl

@[simp] theorem idle_reportTo (r : ReqId) (failed : Bool) (p : Option ReqId) :
    (reportTo r failed p).idle = true := by
  cases p <;> rfl

@[simp] theorem tally_lastCall (p : ReqId) (n : Nat) : (lastCall p n).tally P = 0 :=
  tally_of_idle P (idle_lastCall p n)

@[simp] theorem tally_reportTo (r : ReqId) (failed : Bool) (p : Option ReqId) :
    (reportTo r failed p).tally P = 0 :=
  tally_of_idle P (idle_reportTo r failed p)

end Hand

/-- How many pending events are of a kind, the one in hand included. -/
def Flow.count (f : Flow) : Nat :=
  f.hand.tally P + tally P f.events

theorem Flow.count_pos : 0 < f.count P ↔ ∃ k, f.Pending k ∧ P k := by
  have hh : 0 < f.hand.tally P ↔ ∃ t k, f.hand = .event t k ∧ P k := by
    cases f.hand <;> simp [Hand.tally, Nat.pos_iff_ne_zero]
  unfold Flow.count Flow.Pending
  rw [Nat.add_pos_iff_pos_or_pos, hh, tally_pos]
  constructor
  · rintro (⟨t, k, h, hP⟩ | ⟨t, k, h, hP⟩)
    · exact ⟨k, ⟨t, .inl h⟩, hP⟩
    · exact ⟨k, ⟨t, .inr h⟩, hP⟩
  · rintro ⟨k, ⟨t, h | h⟩, hP⟩
    · exact .inl ⟨t, k, h, hP⟩
    · exact .inr ⟨t, k, h, hP⟩

/-- The events that launch calls are spawns and the beginnings of caller overhead. -/
theorem Launches.tally_eq_zero {r : ReqId} {c : CallId} {n : Nat} {es : List (Time × EventKind)}
    (h : Launches env f r c n es) (hs : ∀ k d, role k = .spawn d → ¬ P k)
    (ho : ∀ k d, role k = .overhead d → ¬ P k) : tally P es = 0 := by
  induction h with
  | nil => rfl
  | cons h _ ih =>
    rw [tally_append, ih]
    cases h with
    | call _ d => simp [hs (.downstreamCall d) _ rfl]
    | overhead o =>
      simp [OverheadData.events, hs (.callerOverheadEnd o) _ rfl, ho (.callerOverheadStart o) _ rfl]

@[simp] theorem tally_ackDeadline (now : Time) (r : ReqId) (ref : ShardRef) (sh : Shard)
    (m : QueuedMessage) : tally P (ackDeadline env now r ref sh m) =
      if ackTimeoutOf env ref sh > 0 ∧ P (ackEvent r ref m) then 1 else 0 := by
  unfold ackDeadline
  split <;> simp_all

@[simp] theorem tally_timeoutEvents (k : EventKind) (c : SpawnCore) :
    tally P (f.timeoutEvents env k c) =
      if f.timeoutFor env c k > 0 ∧ P (.downstreamTimeout f.size c.parent c.isAsync) then 1
      else 0 := by
  unfold Flow.timeoutEvents
  split <;> simp_all

@[simp] theorem tally_retentionEvents (now : Time) (ref : ShardRef) (sh : Shard) :
    tally P (retentionEvents env now ref sh) =
      if (nextRetention env now ref sh).isSome ∧ P (retentionEvent ref) then 1 else 0 := by
  unfold retentionEvents
  split <;> simp_all

@[simp] theorem tally_purgedEvents (now : Time) (ref : ShardRef) (sh : Shard) :
    tally P (purgedEvents env now ref sh) =
      if ¬ (sh.expired now (retentionOf env ref)).isEmpty ∧ P (dequeueEvent ref) then 1 else 0 := by
  unfold purgedEvents
  split <;> simp_all

@[simp] theorem tally_overheadEvents (o : OverheadData) : tally P o.events =
    (if P (.callerOverheadStart o) then 1 else 0) + if P (.callerOverheadEnd o) then 1 else 0 := by
  simp [OverheadData.events]

end Counting

/-! ### Issued events -/

/-- Events without data of requests. -/
def loose : EventKind → Bool
  | .drainSweep => true
  | .queueDequeue _ _ => true
  | .topicDequeue _ _ _ _ => true
  | .queueDLQ _ _ => true
  | .topicDLQ _ _ _ _ _ => true
  | .topicRetentionExpire _ _ _ _ => true
  | _ => false

@[simp] theorem loose_dequeueEvent (ref : ShardRef) : loose (dequeueEvent ref) = true := by
  cases ref <;> rfl

@[simp] theorem loose_deadLetterEvent (ref : ShardRef) (m : QueuedMessage) :
    loose (deadLetterEvent ref m) = true := by
  cases ref <;> rfl

@[simp] theorem loose_retentionEvent (ref : ShardRef) : loose (retentionEvent ref) = true := by
  cases ref <;> rfl

/-- The owner of the calls that a request makes now. -/
inductive Calls (f' : Flow) (r : ReqId) : Bool → Option CallId → Prop
  | async : Calls f' r true none
  | sync (k : CallId) (hk : f'.calls[k]? = some r) : Calls f' r false (some k)

/-- The events that an action from `f` to `f'` can issue. -/
inductive Issued (env : Env) (f f' : Flow) : Time → EventKind → Prop
  | loose (t : Time) (k : EventKind) (hk : loose k = true) (ht : f.now ≤ t) : Issued env f f' t k
  /-- A new request starts now. -/
  | start (i : String) (hi : f.ledger.Routable i) (hn : f.size < f'.size) :
      Issued env f f' f.now (.requestStart f.size i)
  | restart (t : Time) (r : ReqId) (i : String) (res : Reservation)
      (hh : f.hand = .event t (.requestStart r i)) (hi : f.ledger.Has i) (hn : f.now < res.start)
      (hc : res.start ≤ res.finish)
      (hd : r < f.size → (f'.job r).cpuDeferred = some (res.start, res.finish)) :
      Issued env f f' res.start (.requestStart r i)
  | complete (t t' : Time) (r : ReqId) (i : String) (hh : f.hand = .event t (.requestStart r i))
      (ht : f.now ≤ t') : Issued env f f' t' (.requestComplete r)
  | retry (t : Time) (r p : ReqId) (isAsync : Bool) (d : SpawnData)
      (hr : (f.job r).parent = some p ∧ (f.job r).downstreamAsync = isAsync ∨
        ∃ t, f.hand = .event t (.downstreamTimeout r p isAsync))
      (hd : core d = (f.job r).retryCore p isAsync) (ht : Forward env → f.now ≤ t) :
      Issued env f f' t (.downstreamRetry d)
  | overheadRetry (t t' : Time) (o : OverheadData) (d : SpawnData)
      (hh : f.hand = .event t (.callerOverheadStart o))
      (hd : core d = { core o.spawn with retryAttempt := o.spawn.retryAttempt + 1 })
      (ht : Forward env → f.now ≤ t') : Issued env f f' t' (.downstreamRetry d)
  /-- A request calls a service. -/
  | call (t : Time) (r : ReqId) (phase : Phase) (d : SpawnData) (rc : ResolvedCall) (isAsync : Bool)
      (call : Option CallId) (hh : f.hand = .done r phase) (hs : Selected env (f.job r) rc isAsync)
      (hc : Calls f' r isAsync call) (hd : core d = (f.job r).edgeCore r rc isAsync call)
      (hm : d.timeoutMs = rc.call.timeoutMs) (ht : f.now ≤ t) :
      Issued env f f' t (.downstreamCall d)
  /-- A call first costs a request CPU time. -/
  | overhead (t : Time) (k : EventKind) (r : ReqId) (phase : Phase) (o : OverheadData)
      (rc : ResolvedCall) (isAsync : Bool) (call : Option CallId) (hh : f.hand = .done r phase)
      (hs : Selected env (f.job r) rc isAsync) (hc : Calls f' r isAsync call)
      (hd : core o.spawn = (f.job r).edgeCore r rc isAsync call) (hr : o.fromRetry = false)
      (ho : o.Sound) (ht : f.now ≤ o.reservedCPUStart) (hi : f.ledger.Has o.instanceID)
      (hk : (t, k) ∈ o.events) : Issued env f f' t k
  /-- A retry first costs the caller CPU time. -/
  | retryOverhead (t t' : Time) (k : EventKind) (d : SpawnData) (o : OverheadData)
      (hh : f.hand = .event t (.downstreamRetry d)) (hd : core o.spawn = core d)
      (hr : o.fromRetry = true) (ho : o.Sound) (ht : f.now ≤ o.reservedCPUStart)
      (hi : f.ledger.Has o.instanceID) (hk : (t', k) ∈ o.events) : Issued env f f' t' k
  | overheadCall (t t' : Time) (o : OverheadData) (d : SpawnData)
      (hh : f.hand = .event t (.callerOverheadEnd o))
      (hd : core d = { core o.spawn with retryAttempt := 0 })
      (hm : d.timeoutMs = (f.edgeFor env (core o.spawn)).timeoutMs) (ht : f.now ≤ t') :
      Issued env f f' t' (.downstreamCall d)
  /-- A request publishes. -/
  | publish (t : Time) (k : EventKind) (r : ReqId) (phase : Phase) (rc : ResolvedCall)
      (hh : f.hand = .done r phase) (hs : Selected env (f.job r) rc true)
      (hk : role k = .publish r ((f.job r).traceDepth + 1) ((f.job r).asyncDepth + 1))
      (ht : f.now ≤ t) : Issued env f f' t k
  /-- A spawn publishes. -/
  | spawnPublish (t t' : Time) (k k' : EventKind) (c : SpawnCore) (hh : f.hand = .event t k)
      (hk : role k = .spawn c) (hb : brokerService env c.serviceID = true)
      (hk' : role k' = .publish c.parent c.traceDepth c.asyncDepth) (ht : f.now ≤ t') :
      Issued env f f' t' k'
  /-- A new attempt times out. -/
  | timeout (t : Time) (k : EventKind) (c : SpawnCore) (hh : f.hand = .event t k)
      (hk : role k = .spawn c) (hm : f.timeoutFor env c k > 0)
      (hj : (f'.job f.size).parent = some c.parent ∧ (f'.job f.size).downstreamAsync = c.isAsync) :
      Issued env f f' (f.now + wholeMsToDuration (f.timeoutFor env c k))
        (.downstreamTimeout f.size c.parent c.isAsync)
  /-- A new delivery has a deadline. -/
  | ack (ref : ShardRef) (sh : Shard) (m : QueuedMessage) (hm : ackTimeoutOf env ref sh > 0)
      (hj : (f'.job f.size).delivery = some ⟨ref, m⟩) :
      Issued env f f' (f.now + wholeMsToDuration (ackTimeoutOf env ref sh)) (ackEvent f.size ref m)
  /-- A publisher waits for its acknowledgements. -/
  | finalize (t : Time) (r : ReqId) (phase : Phase) (hh : f.hand = .done r phase) (ht : f.now ≤ t) :
      Issued env f f' t (.asyncParentFinalize r)

theorem nextRetention_ge (h : nextRetention env now ref sh = some t) : now ≤ t := by
  unfold nextRetention at h
  split at h
  · cases h
  · split at h
    · cases h
    · split at h
      · cases h
        exact le_max_left _ _
      · cases h

theorem mem_retentionEvents (h : (t, k) ∈ retentionEvents env now ref sh) :
    k = retentionEvent ref ∧ now ≤ t := by
  unfold retentionEvents at h
  split at h
  · rename_i ht'
    obtain ⟨rfl, rfl⟩ := by simpa using h
    exact ⟨rfl, nextRetention_ge ht'⟩
  · simp at h

theorem mem_purgedEvents (h : (t, k) ∈ purgedEvents env now ref sh) :
    k = dequeueEvent ref ∧ t = now := by
  unfold purgedEvents at h
  split at h
  · simp at h
  · obtain ⟨rfl, rfl⟩ := by simpa using h
    exact ⟨rfl, rfl⟩

theorem Launches.issued {r : ReqId} {phase : Phase} {c : CallId} {n : Nat}
    {es : List (Time × EventKind)} (h : Launches env f r c n es) (hh : f.hand = .done r phase)
    (hc : ∀ i < n, f'.calls[c + i]? = some r) (hk : (t, k) ∈ es) : Issued env f f' t k := by
  induction h with
  | nil => simp at hk
  | @cons c n _ _ h _ ih =>
    rcases mem_append.1 hk with hk | hk
    · refine ih (fun i hi => ?_) hk
      have := hc (i + 1) (by omega)
      rwa [Nat.add_assoc, Nat.add_comm 1 i]
    · have hca : Calls f' r false (some c) := .sync c (hc 0 (Nat.succ_pos n))
      cases h with
      | call _ d rc hs hd hm ht =>
        obtain ⟨rfl, rfl⟩ := by simpa using hk
        exact .call t r phase d rc false (some c) hh hs hca hd hm ht
      | overhead o rc hs hd hr ho ht hi =>
        exact .overhead t k r phase o rc false (some c) hh hs hca hd hr ho ht hi hk

/-- An action only issues new events. -/
theorem Act.issued (h : Act env f f') :
    ∃ es, f'.events = es ++ f.events ∧ ∀ t k, (t, k) ∈ es → Issued env f f' t k := by
  have cons {t k es} (hk : Issued env f f' t k) (hes : ∀ t k, (t, k) ∈ es → Issued env f f' t k)
      (t' : Time) (k' : EventKind) (hmem : (t', k') ∈ (t, k) :: es) : Issued env f f' t' k' := by
    rcases mem_cons.1 hmem with h | h
    · cases h
      exact hk
    · exact hes t' k' h
  have single {t k} (he : f'.events = (t, k) :: f.events) (hk : Issued env f f' t k) :
      ∃ es, f'.events = es ++ f.events ∧ ∀ t k, (t, k) ∈ es → Issued env f f' t k :=
    ⟨[(t, k)], he, cons hk (by simp)⟩
  have dequeued (ref) : Issued env f f' f.now (dequeueEvent ref) :=
    .loose f.now _ (loose_dequeueEvent _) le_rfl
  have retained (ref sh t k) (hmem : (t, k) ∈ retentionEvents env f.now ref sh) :
      Issued env f f' t k := by
    obtain ⟨rfl, ht⟩ := mem_retentionEvents hmem
    exact .loose t _ (loose_retentionEvent _) ht
  cases h
  case sweepAgain t' _ ht => exact single rfl (.loose t' _ rfl ht)
  case accept i _ _ _ hi => exact single rfl (.start i hi (by simp))
  case startDefer t r i _ res hh _ hi hn hc =>
    exact single rfl (.restart t r i res hh hi hn hc fun hr => by simp [hr])
  case startRun t t' r i _ _ _ _ hh _ _ _ ht =>
    exact single rfl (.complete t t' r i hh ht)
  case retry r p _ t d _ hp ha _ hd ht =>
    exact single rfl (.retry t r p false d (.inl ⟨hp, ha⟩) hd ht)
  case timeoutRetry t t' r p d hh _ _ _ hd ht =>
    exact single rfl (.retry t' r p false d (.inr ⟨t, hh⟩) hd ht)
  case timeoutAbandon t t' r p d hh _ _ hd ht =>
    exact single rfl (.retry t' r p true d (.inr ⟨t, hh⟩) hd ht)
  case overheadRetry t t' o d hh _ _ _ hd ht =>
    exact single rfl (.overheadRetry t t' o d hh hd ht)
  case spawnStart t k c i hh hk hi =>
    refine ⟨f.timeoutEvents env k c ++ [(f.now, .requestStart f.size i)], by simp, ?_⟩
    intro t' k' hmem
    rcases mem_append.1 hmem with hmem | hmem
    · unfold Flow.timeoutEvents at hmem
      split_ifs at hmem with hm
      · obtain ⟨rfl, rfl⟩ := by simpa using hmem
        exact .timeout t k c hh hk hm (by simp [SpawnCore.job])
      · simp at hmem
    · obtain ⟨rfl, rfl⟩ := by simpa using hmem
      exact .start i hi (by simp)
  case spawnPublish t t' k k' c hh hk hb hk' ht =>
    exact single rfl (.spawnPublish t t' k k' c hh hk hb hk' ht)
  case retryOverhead t d o hh hd hr ho ht hi =>
    exact ⟨o.events, rfl, fun t' k hk => .retryOverhead t t' k d o hh hd hr ho ht hi hk⟩
  case overheadCall t t' o d hh _ hd hm ht =>
    exact single rfl (.overheadCall t t' o d hh hd hm ht)
  case completeAck =>
    exact single rfl (dequeued _)
  case callAsync r phase t d rc hh _ hs hd hm ht =>
    exact single rfl (.call t r phase d rc true none hh hs .async hd hm ht)
  case publishAsync r phase t k rc hh _ hs hk ht =>
    exact single rfl (.publish t k r phase rc hh hs hk ht)
  case overheadAsync r phase o rc hh _ hs hd hr ho ht hi =>
    exact ⟨o.events, rfl, fun t k hk =>
      .overhead t k r phase o rc true none hh hs .async hd hr ho ht hi hk⟩
  case defer r deadline hh _ ht => exact single rfl (.finalize deadline r .opened hh ht)
  case await es hh _ _ hes =>
    exact ⟨es, rfl, fun t k hk => hes.issued hh (fun i hi => by simp [hi]) hk⟩
  case enqueue | deliver =>
    simp only [Flow.take_events, Flow.store_events]
    split
    · exact ⟨_ :: _, (cons_append ..).symm, cons (dequeued _) (retained _ _)⟩
    · exact ⟨[], rfl, by simp⟩
  case dispatch ref _ sh' m _ _ i _ _ _ _ hi =>
    refine ⟨ackDeadline env f.now f.size ref sh' m ++ [(f.now, .requestStart f.size i)], by simp,
      ?_⟩
    intro t' k' hmem
    rcases mem_append.1 hmem with hmem | hmem
    · unfold ackDeadline at hmem
      split_ifs at hmem with hm
      · obtain ⟨rfl, rfl⟩ := by simpa using hmem
        exact .ack ref sh' m hm (by simp [consumerJob])
      · simp at hmem
    · obtain ⟨rfl, rfl⟩ := by simpa using hmem
      exact .start i hi (by simp)
  case popNoInstance ref _ sh' m _ _ _ _ =>
    exact ⟨retentionEvents env f.now ref (sh'.requeueFront m), rfl, retained _ _⟩
  case ackRequeue =>
    exact ⟨_ :: _, (cons_append ..).symm, cons (dequeued _) (retained _ _)⟩
  case ackDead del _ _ _ _ _ _ _ =>
    refine ⟨[(f.now, dequeueEvent del.shard), (f.now, deadLetterEvent del.shard del.message)], rfl,
      cons (dequeued _) (cons ?_ (by simp))⟩
    exact .loose f.now _ (loose_deadLetterEvent _ _) le_rfl
  case expire b topic g p sh _ _ _ =>
    refine ⟨purgedEvents env f.now (.topic b topic p g) sh ++ retentionEvents env f.now
      (.topic b topic p g) (purged env f.now (.topic b topic p g) sh), by simp, ?_⟩
    intro t' k' hmem
    rcases mem_append.1 hmem with hmem | hmem
    · obtain ⟨rfl, rfl⟩ := mem_purgedEvents hmem
      exact dequeued _
    · exact retained _ _ t' k' hmem
  all_goals exact ⟨[], rfl, by simp⟩

theorem Act.now_eq (h : Act env f f') : f'.now = f.now := by
  cases h <;> simp

theorem Act.hand_cases (h : Act env f f') : f'.hand = f.hand ∨ f'.hand.idle = true := by
  cases h
  case drain | settle | callAsync | publishAsync | overheadAsync | promise | finish =>
    exact .inl rfl
  case reportCount | overheadCount => exact .inr (Hand.idle_lastCall _ _)
  case closeOk | closeFailed => exact .inr (Hand.idle_reportTo _ _ _)
  all_goals exact .inr rfl

/-- A queued event was queued before, has just been issued, or comes from outside. -/
theorem Turn.events_cases (h : Turn env f f') (hk : (t, k) ∈ f'.events) :
    (t, k) ∈ f.events ∨ Issued env f f' t k ∨
      k.external = true ∧ (f'.backdated = false → f.now ≤ t) := by
  rcases h with h | h
  · obtain ⟨es, he, hi⟩ := h.issued
    rw [he] at hk
    rcases mem_append.1 hk with hk | hk
    · exact .inr (.inl (hi t k hk))
    · exact .inl hk
  · cases h with
    | pop _ _ _ _ _ _ _ he =>
      left
      rw [he]
      rcases mem_append.1 hk with hk | hk
      · exact mem_append_left _ hk
      · exact mem_append_right _ (mem_cons_of_mem _ hk)
    | schedule _ _ _ _ hk' =>
      rcases mem_cons.1 hk with hk | hk
      · obtain ⟨rfl, rfl⟩ := by simpa using hk
        refine .inr (.inr ⟨hk', fun hl => ?_⟩)
        simp only [Flow.schedule_backdated, Bool.or_eq_false_iff, decide_eq_false_iff_not,
          not_lt] at hl
        exact hl.2
      · exact .inl hk
    | scale | sweep => exact .inl hk

/-- The event that leaves the queue is a first one in time. -/
theorem time_le_of_first {newer older : List (Time × EventKind)}
    (hn : ∀ x ∈ newer, rank (t, k) ≤ rank x) (ho : ∀ x ∈ older, rank (t, k) < rank x) :
    ∀ x ∈ newer ++ older, t ≤ x.1 := by
  intro x hx
  rcases mem_append.1 hx with hx | hx
  · exact time_le_of_rank_le (hn x hx)
  · exact time_le_of_rank_le (ho x hx).le

/-- An event in hand was there before, or it has just been taken from the queue. -/
theorem Turn.hand_event_cases (h : Turn env f f') (hk : f'.hand = .event t k) :
    f.hand = .event t k ∧ f'.now = f.now ∨
      (t, k) ∈ f.events ∧ f'.now = t ∧ f.hand = .free ∧ ∀ x ∈ f'.events, t ≤ x.1 := by
  rcases h with h | h
  · rcases h.hand_cases with hha | hi
    · exact .inl ⟨hha ▸ hk, h.now_eq⟩
    · rw [hk] at hi
      cases hi
  · cases h with
    | pop _ _ _ _ hh _ _ he hn ho =>
      obtain ⟨rfl, rfl⟩ := by simpa using hk
      exact .inr ⟨by simp [he], rfl, hh, time_le_of_first hn ho⟩
    | schedule | scale | sweep => exact .inl ⟨hk, rfl⟩

/-- The time changes only when a first event is taken from the queue. -/
theorem Turn.now_cases (h : Turn env f f') : f'.now = f.now ∨ ∀ x ∈ f'.events, f'.now ≤ x.1 := by
  rcases h with h | h
  · exact .inl h.now_eq
  · cases h with
    | pop _ _ _ _ _ _ _ _ hn ho =>
      exact .inr (time_le_of_first hn ho)
    | schedule | scale | sweep => exact .inl rfl

/-- A pending event was pending before, has just been issued, or comes from outside. -/
theorem Turn.pending_cases (h : Turn env f f') (hk : f'.PendingAt t k) :
    f.PendingAt t k ∨ Issued env f f' t k ∨
      k.external = true ∧ (f'.backdated = false → f.now ≤ t) := by
  rcases hk with hk | hk
  · rcases h.hand_event_cases hk with ⟨hk, -⟩ | ⟨hk, -⟩
    · exact .inl (.inl hk)
    · exact .inl (.inr hk)
  · exact (h.events_cases hk).imp_left .inr

end SimCore.Protocol
