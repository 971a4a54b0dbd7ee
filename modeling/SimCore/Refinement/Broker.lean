import SimCore.Refinement.Spawn

/-!
# Broker handlers as actions

Publishing, dispatch, acknowledgement deadlines, dead letters and retention of queues and topics.

## Main results

* `via_handleQueueEnqueue`, `via_handleQueueDequeue`, `via_handleQueueAckTimeout`,
  `via_handleQueueDLQ`
* `via_handleTopicPublish`, `via_handleTopicDequeue`, `via_handleTopicAckTimeout`,
  `via_handleTopicDLQ`, `via_handleTopicRetentionExpire`
-/

namespace SimCore.Simd

open Protocol Resource Config Interaction State

variable {env : Env} {s s' : State} {h : Hand} {c : List ReqId} {f₀ : Flow} {r p : ReqId} {t : Time}
  {f : Flow} {ref : ShardRef} {sh : Shard} {d : PublishData} {msg : QueuedMessage}
  {b topic g : String} {partition offset : Nat} {k : EventKind} {sh' : Shard}

/-! ### Shards -/

@[simp] theorem State.flow_setShard (ref : ShardRef) (sh : Shard) :
    (s.setShard ref sh).flow h c = (s.flow h c).setShard ref sh := rfl

@[simp] theorem State.now_setShard (ref : ShardRef) (sh : Shard) :
    (s.setShard ref sh).now = s.now := rfl

theorem setShard_setShard (f : Flow) (ref : ShardRef) (sh sh' : Shard) :
    (f.setShard ref sh).setShard ref sh' = f.setShard ref sh' := by
  simp [Flow.setShard]

theorem newTopicShard_fresh (b topic : String) (partition : Nat) (g : String) (eff : TopicBehavior)
    (sub : TopicSubscriber) : FreshShard (newTopicShard b topic partition g eff sub) := by
  refine ⟨rfl, rfl, ?_, rfl, rfl, rfl⟩
  simp only [newTopicShard]
  split <;> omega

theorem store_accepted {m : QueuedMessage} (ha : (sh.enqueue m).1.accepted = true) :
    f.store env ref sh m =
      ((({ f with nextMsg := f.nextMsg + 1 } : Flow).rearm env ref (delivered ref sh m)).issue f.now
        (dequeueEvent ref)) := by
  simp [Flow.store, Flow.rearm, Flow.issue, ha]

theorem store_rejected {m : QueuedMessage} (ha : (sh.enqueue m).1.accepted = false) :
    f.store env ref sh m =
      ({ f with nextMsg := f.nextMsg + 1 } : Flow).setShard ref (delivered ref sh m) := by
  simp [Flow.store, Flow.setShard, ha]

/-- A shard without a next retention check is written as it is. -/
theorem rearm_of_none (hn : nextRetention env f.now ref sh = none) :
    f.rearm env ref sh = f.setShard ref sh := by
  simp [Flow.rearm, Flow.setShard, armed, retentionEvents, hn]

theorem rearm_of_some {t : Time} (hn : nextRetention env f.now ref sh = some t) :
    f.rearm env ref sh = (f.setShard ref { sh with retentionNextFireScheduled := some t }).issue t
        (retentionEvent ref) := by
  simp [Flow.rearm, Flow.setShard, Flow.issue, armed, retentionEvents, hn]

/-! ### Queues -/

theorem getBrokerQueue_finds (b topic : String) :
    (s.flow h c).Finds (.queue b topic) (getBrokerQueue env s b topic) := by
  unfold getBrokerQueue
  cases hs : s.brokers.shards (.queue b topic) with
  | some => exact .inl hs
  | none =>
    refine .inr ⟨hs, rfl, rfl, ?_, rfl, rfl, rfl⟩
    simp only [Option.getD_none, newQueueShard]
    split <;> omega

theorem via_handleQueueEnqueue (hv : Via env f₀ (s.flow (.event t (.queueEnqueue d)) c)) :
    Via env f₀ ((handleQueueEnqueue env s d).flow .free c) := by
  rw [← flow_noteSimTime] at hv
  unfold handleQueueEnqueue
  simp only
  set s₁ : State := { s with rm := s.rm.noteSimTime s.now } with hs₁
  set topic := if d.topic = "" then "/" else d.topic
  set msg : QueuedMessage := { id := s₁.nextMsg, enqueueTime := s₁.now, parentRequestID := d.parent
                               metadata := messageMeta s₁ d }
  have ha := hv.act (.enqueue t d topic (getBrokerQueue env s₁ d.brokerID topic) msg rfl
    (getBrokerQueue_finds ..) ⟨rfl, rfl, rfl, rfl, rfl, rfl⟩)
  split
  · rename_i hacc
    rw [store_rejected (by simpa using hacc)] at ha
    exact ha
  · rename_i hacc
    simp (disch := decide) only [flow_scheduleAt, flow_record_other, flow_ite,
      ite_self, now_record, now_ite]
    rw [store_accepted (by simpa using hacc), rearm_of_none rfl] at ha
    exact ha

theorem newConsumerRequest_toJob (msg : QueuedMessage) (ref : ShardRef) (svc path id : String) :
    ({ (newConsumerRequest s msg ref svc path).toJob with
      instanceID := some id, stage := .queued } : Job) =
        consumerJob ⟨ref, msg⟩ s.now svc path id := by
  rw [newConsumerRequest]
  rw [Request.setCaller_toJob, Request.setTextIf_toJob (by decide),
    Request.setTextIf_toJob (by decide), Request.setTextIf_toJob (by decide)]
  simp [consumerJob]

theorem newConsumerRequest_isRoot (msg : QueuedMessage) (ref : ShardRef) (svc path : String) :
    (newConsumerRequest s msg ref svc path).isRoot = false := by
  have hp := congrArg Job.parent (newConsumerRequest_toJob (s := s) msg ref svc path "")
  simp only [consumerJob] at hp
  simp [Request.isRoot, hp]

/-- A dispatched message starts a consumer request. -/
theorem dispatchConsumer_eq_some {svc path : String}
    (hs : dispatchConsumer env s msg ref svc path = some s') :
    ∃ id, s.rm.ledger.Routable id ∧ ∀ h c, s'.flow h c = ((((s.flow h c).addJob
      (consumerJob ⟨ref, msg⟩ s.now svc path id)).register s.heap.length).issue s.now
        (.requestStart s.heap.length id)).note (.dispatched s.heap.length ⟨ref, msg⟩ s.now) := by
  unfold dispatchConsumer at hs
  simp only at hs
  split at hs
  · cases hs
  · rename_i id s₁ hsel
    have hs₁ : ∀ h c, s₁.flow h c = s.flow h c := fun h c => (flow_selectInstanceForRequest hsel).1
    have hn : s₁.now = s.now := congrArg Flow.now (hs₁ .free [])
    cases hs
    refine ⟨id, (flow_selectInstanceForRequest (h := .free) (c := []) hsel).2, fun h c => ?_⟩
    rw [flow_observe, flow_scheduleStart,
      flow_record_requestCount (newConsumerRequest_isRoot ..), flow_addRequest,
      flow_alloc, hs₁, setJob_register_addJob, Request.setText_instance, now_record,
      now_addRequest, now_alloc, hn, ← newConsumerRequest_toJob]

theorem flow_scheduleQueueAckTimeout (sh : Shard) (r : ReqId) (b topic : String)
    (msg : QueuedMessage) : (scheduleQueueAckTimeout env s r b topic msg).flow h c =
      (s.flow h c).issueAll (ackDeadline env s.now r (.queue b topic) sh msg) := by
  by_cases hp : ackTimeoutOf env (.queue b topic) sh > 0
  · have hms : (effectiveQueueForBroker env.scenario b).ackTimeoutMs > 0 := hp
    rw [ackDeadline, if_pos hp, scheduleQueueAckTimeout]
    simp only [if_pos hms, flow_scheduleAt]
    rfl
  · have hms : ¬ (effectiveQueueForBroker env.scenario b).ackTimeoutMs > 0 := hp
    rw [ackDeadline, if_neg hp, issueAll_nil, scheduleQueueAckTimeout]
    simp only [if_neg hms]

/-- A message that is dispatched to a consumer, with the deadline that it brings. -/
theorem via_dispatched {s'' : State} {svc path : String} (hk : role k = .dequeue ref)
    (hs : s.brokers.shards ref = some sh) (hp : sh.tryPopForDispatch = some (msg, sh'))
    (hs' : ∀ h c, s'.flow h c = (s.flow h c).setShard ref sh')
    (hd : dispatchConsumer env s' msg ref svc path = some s'')
    (hv : Via env f₀ (s.flow (.event t k) c)) :
    Via env f₀ ((s''.flow .free c).issueAll
      (ackDeadline env s''.now s'.heap.length ref sh' msg)) := by
  obtain ⟨id, hid, hf⟩ := dispatchConsumer_eq_some hd
  have hl : s'.rm.ledger = s.rm.ledger := congrArg Flow.ledger (hs' .free [])
  have hlen : s'.heap.length = s.heap.length := by
    rw [← flow_length (h := .free) (c := []), hs', Flow.setShard_jobs, flow_length]
  have hn : s'.now = s.now := congrArg Flow.now (hs' .free [])
  have hn'' : s''.now = s.now := (congrArg Flow.now (hf .free [])).trans hn
  rw [hl] at hid
  have ha := hv.act (.dispatch t k ref sh sh' msg svc path id rfl hk hs hp hid)
  rw [Flow.size, flow_length] at ha
  rw [hf, hs', hlen, hn, hn'']
  exact ha

theorem via_dispatchQueueMessage (hs : s.brokers.shards (.queue b topic) = some sh)
    (hp : sh.tryPopForDispatch = some (msg, sh'))
    (hs' : ∀ h c, s'.flow h c = (s.flow h c).setShard (.queue b topic) sh')
    (hv : Via env f₀ (s.flow (.event t (.queueDequeue b topic)) c)) :
    Via env f₀ ((dispatchQueueMessage env s' b topic sh' msg).flow .free c) := by
  unfold dispatchQueueMessage
  simp only
  split
  · rw [flow_observe, hs']
    exact hv.act (.popInvalid t _ _ sh sh' msg rfl rfl hs hp)
  split
  · rw [flow_observe, flow_setShard, hs', setShard_setShard]
    exact hv.act (.popParentless t _ _ sh sh' msg rfl rfl hs hp)
  split
  · rw [flow_observe, flow_setShard, hs', setShard_setShard]
    have ha := hv.act (.popNoInstance t _ _ sh sh' msg rfl rfl hs hp)
    exact ha
  · rename_i hd
    rw [flow_scheduleQueueAckTimeout sh']
    exact via_dispatched rfl hs hp hs' hd hv

/-- Without a message that can be dispatched nothing happens. -/
theorem via_nothingPopped (hk : role k = .dequeue ref)
    (hn : ∀ sh, s.brokers.shards ref = some sh → sh.tryPopForDispatch = none)
    (hv : Via env f₀ (s.flow (.event t k) c)) :
    Via env f₀ (({ s with rm := s.rm.noteSimTime s.now } : State).flow .free c) := by
  rw [flow_noteSimTime]
  exact hv.act (.dequeueNone t k ref rfl hk hn)

theorem via_handleQueueDequeue (hv : Via env f₀ (s.flow (.event t (.queueDequeue b topic)) c)) :
    Via env f₀ ((handleQueueDequeue env s b topic).flow .free c) := by
  unfold handleQueueDequeue
  simp only
  split
  · rename_i hs
    exact via_nothingPopped rfl (by simp [hs]) hv
  · rename_i hs
    split
    · rename_i hp
      exact via_nothingPopped rfl (by simp [hs, hp]) hv
    · rename_i hp
      refine via_dispatchQueueMessage hs hp (fun h c => ?_) hv
      rw [flow_record_other rfl, flow_record_other rfl, flow_setShard, flow_noteSimTime]

/-! ### Acknowledgement deadlines -/

theorem flow_failTimedOutConsumer : (failTimedOutConsumer s r).flow h c =
    (s.flow h c).setJob r fun j => { j with status := .failed, brokerAckTimedOut := true } := by
  rw [failTimedOutConsumer, flow_record_other rfl]
  exact flow_update _ fun _ => rfl

@[simp] theorem now_failTimedOutConsumer : (failTimedOutConsumer s r).now = s.now := rfl

@[simp] theorem now_observeLateAckTimeout : (observeLateAckTimeout s r).now = s.now := by
  simp [observeLateAckTimeout]

theorem flow_observeIgnoredAckTimeout : (observeIgnoredAckTimeout s r).flow h c =
    (s.flow h c).noteIf ((s.req r).stage ≠ .worked) (.ackTimeoutIgnored r) := by
  unfold observeIgnoredAckTimeout
  by_cases hst : (s.req r).stage = .worked
  · rw [if_pos hst, noteIf_neg (not_not.2 hst)]
  · rw [if_neg hst, noteIf_pos hst, flow_observe]

theorem flow_observeLateAckTimeout : (observeLateAckTimeout s r).flow h c =
    (s.flow h c).noteIf ((s.req r).stage = .worked) (.ackTimeoutAfterWork r) := by
  unfold observeLateAckTimeout
  by_cases hst : (s.req r).stage = .worked
  · rw [if_pos hst, noteIf_pos hst, flow_observe]
  · rw [if_neg hst, noteIf_neg hst]

theorem getRequest_status : (s.getRequest r).map (fun q => q.status) = some .processing ↔
      s.run.knows r = true ∧ (s.req r).status = .processing := by
  unfold State.getRequest
  split <;> simp_all

theorem via_ackIgnored {del : Delivery} (hk : role k = .ack r del)
    (hn : (s.getRequest r).map (fun q => q.status) ≠ some .processing)
    (hv : Via env f₀ (s.flow (.event t k) c)) :
    Via env f₀ ((observeIgnoredAckTimeout s r).flow .free c) := by
  rw [ne_eq, getRequest_status, not_and_or, Bool.not_eq_true] at hn
  rw [flow_observeIgnoredAckTimeout]
  have ha := hv.act (.ackIgnore t k r del rfl hk (by simpa using hn))
  rw [job_flow] at ha
  exact ha

theorem via_handleQueueAckTimeout {d : AckData}
    (hv : Via env f₀ (s.flow (.event t (.queueAckTimeout d)) c)) :
    Via env f₀ ((handleQueueAckTimeout env s d).flow .free c) := by
  rw [← flow_noteSimTime] at hv
  unfold handleQueueAckTimeout
  simp only
  split
  · rename_i hn
    exact via_ackIgnored rfl hn hv
  rename_i hn
  obtain ⟨hk, hst⟩ := getRequest_status.1 (not_not.1 hn)
  split
  · rename_i hs
    exact hv.act (.ackVoid t _ d.child ⟨.queue d.brokerID d.topic, d.message⟩ rfl rfl hs)
  rename_i sh hs
  simp only [now_observe, now_setShard, now_record, now_scheduleAt,
    now_failTimedOutConsumer, now_observeLateAckTimeout, now_ite, ite_self]
  rw [flow_scheduleAt]
  split_ifs with hl
  · have ha := hv.act (.ackDead t _ d.child ⟨.queue d.brokerID d.topic, d.message⟩ sh rfl rfl
      hk (by simpa using hst) hs hl)
    rw [job_flow] at ha
    rw [flow_observe, flow_scheduleAt, flow_setShard, flow_observe,
      flow_failTimedOutConsumer, flow_observeLateAckTimeout]
    exact ha
  · have ha := hv.act (.ackRequeue t _ d.child ⟨.queue d.brokerID d.topic, d.message⟩ sh rfl rfl
      hk (by simpa using hst) hs (not_lt.1 hl))
    rw [job_flow] at ha
    rw [flow_observe, flow_record_other rfl, flow_setShard, flow_observe,
      flow_failTimedOutConsumer, flow_observeLateAckTimeout]
    exact ha

theorem via_handleQueueDLQ (hv : Via env f₀ (s.flow (.event t (.queueDLQ b topic)) c)) :
    Via env f₀ ((handleQueueDLQ s b topic).flow .free c) := by
  rw [← flow_noteSimTime] at hv
  unfold handleQueueDLQ
  rw [flow_record_other rfl]
  split
  · rename_i sh hs
    split at hs
    · cases hs
    · exact hv.act (.countDead t b topic sh rfl hs)
  · exact hv.act (.discard t _ rfl rfl)

/-! ### Topics: retention -/

section Retention

variable {b topic g : String} {partition : Nat}

/-- A written shard schedules its next retention check. -/
theorem flow_scheduleTopicShardRetention {f : Flow} {sh : Shard}
    (hs : s.flow h c = f.setShard (.topic b topic partition g) sh) :
    (scheduleTopicShardRetention env s b topic partition g).flow h c =
      f.rearm env (.topic b topic partition g) sh := by
  have hshard : s.brokers.shards (.topic b topic partition g) = some sh := by
    have hsh := congrArg (fun f : Flow => f.shards (.topic b topic partition g)) hs
    simpa using hsh
  have hn : s.now = f.now := congrArg Flow.now hs
  unfold scheduleTopicShardRetention
  simp only [hshard]
  by_cases hr : (effectiveTopicForBroker env.scenario b).retentionMs ≤ 0
  · rw [if_pos hr, hs, rearm_of_none (by simp [nextRetention, retentionOf, hr])]
  rw [if_neg hr]
  split
  · rename_i hold
    rw [hs, rearm_of_none (by simp [nextRetention, hold])]
  · rename_i hold
    split_ifs with hsch
    · rw [hn] at hsch
      rw [flow_setShard, flow_scheduleAt, hs, hn, rearm_of_some
        (by simp only [nextRetention, retentionOf, if_neg hr, hold]; exact if_pos hsch)]
      simp [Flow.setShard, Flow.issue, retentionEvent]
    · rw [hn] at hsch
      rw [hs, rearm_of_none
        (by simp only [nextRetention, retentionOf, if_neg hr, hold]; exact if_neg hsch)]

@[simp] theorem now_retention :
    (scheduleTopicShardRetention env s b topic partition g).now = s.now := by
  unfold scheduleTopicShardRetention
  grind -ring -linarith [now_setShard, now_scheduleAt]

theorem retention_watermark :
    (scheduleTopicShardRetention env s b topic partition g).brokers.topicPartitionHW =
      s.brokers.topicPartitionHW := by
  unfold scheduleTopicShardRetention
  simp only
  repeat' split
  all_goals rfl

@[simp] theorem flow_recordTopicGauges (name : String) (sh : Shard) :
    (recordTopicGauges s b topic partition g name sh).flow h c = s.flow h c := by
  simp [recordTopicGauges]

@[simp] theorem now_recordTopicGauges (name : String) (sh : Shard) :
    (recordTopicGauges s b topic partition g name sh).now = s.now := rfl

end Retention

/-! ### Topics: publish -/

theorem via_publishToSubscriber {sub : TopicSubscriber} {gs : List String}
    (hw : s.brokers.topicPartitionHW d.brokerID topic partition = offset + 1)
    (hv : Via env f₀ (s.flow (.fanout d topic partition (trimSpace sub.consumerGroup :: gs)) c)) :
    Via env f₀ ((publishToSubscriber env d topic partition offset s sub).flow
      (.fanout d topic partition gs) c) := by
  unfold publishToSubscriber
  simp only
  set g := trimSpace sub.consumerGroup
  set ref := ShardRef.topic d.brokerID topic partition g
  set sh := (s.brokers.shards ref).getD (newTopicShard d.brokerID topic partition g
    (effectiveTopicForBroker env.scenario d.brokerID) sub)
  set msg : QueuedMessage :=
    { id := s.nextMsg, enqueueTime := s.now, parentRequestID := d.parent, topicOffset := offset
      metadata := { messageMeta s d with subscriber := trimSpace sub.name
                                         partition := partition } }
  have hf : (s.flow (.fanout d topic partition (g :: gs)) c).Finds ref sh := by
    cases hs : s.brokers.shards ref with
    | some => exact .inl (by simp [sh, hs])
    | none => exact .inr ⟨hs, by simpa [sh, hs] using newTopicShard_fresh ..⟩
  have ha := hv.act (.deliver d topic partition g gs sh msg rfl hf
    ⟨rfl, rfl, rfl, rfl, rfl, rfl⟩ hw.symm rfl)
  split
  · rename_i hacc
    rw [store_rejected hacc] at ha
    have hd : delivered ref sh msg = (sh.enqueue msg).2.recordTopicOffsetProcessed offset := by
      simp [delivered, ref, hacc, msg]
    rw [hd] at ha
    exact ha
  · rename_i hacc
    have hd : delivered ref sh msg = if (sh.enqueue msg).1.droppedOldest = true then
          (sh.enqueue msg).2.recordTopicOffsetProcessed (sh.enqueue msg).1.evictedTopicOffset
        else (sh.enqueue msg).2 := by
      simp [delivered, ref, hacc]
    rw [store_accepted (by simpa using hacc), hd] at ha
    rw [flow_scheduleAt, flow_scheduleTopicShardRetention
      (f := ({ s with nextMsg := s.nextMsg + 1 } : State).flow (.fanout d topic partition gs) c)]
    · simp only [now_retention, now_record, now_recordTopicGauges, now_setShard, now_ite, ite_self]
      exact ha
    · simp (disch := decide) only [flow_record_other, flow_ite, ite_self,
        flow_recordTopicGauges, flow_setShard]
      rfl

theorem publishToSubscriber_watermark {sub : TopicSubscriber} :
    (publishToSubscriber env d topic partition offset s sub).brokers.topicPartitionHW =
      s.brokers.topicPartitionHW := by
  unfold publishToSubscriber
  simp only
  split
  · rfl
  · refine retention_watermark.trans ?_
    split <;> rfl

theorem via_publishToSubscribers {subs : List TopicSubscriber}
    (hw : s.brokers.topicPartitionHW d.brokerID topic partition = offset + 1)
    (hv : Via env f₀ (s.flow (.fanout d topic partition
      (subs.map fun sub => trimSpace sub.consumerGroup)) c)) :
    Via env f₀
      ((subs.foldl (publishToSubscriber env d topic partition offset) s).flow .free c) := by
  induction subs generalizing s with
  | nil => exact hv.act (.delivered _ _ _ rfl)
  | cons _ _ ih =>
    refine ih ?_ (via_publishToSubscriber hw hv)
    rw [publishToSubscriber_watermark, hw]

theorem flow_topicPartitionForPublish (b topic : String) (n : Int) (key : String) :
    (topicPartitionForPublish s b topic n key).2.flow h c = s.flow h c := by
  unfold topicPartitionForPublish
  split
  · rfl
  · split <;> rfl

theorem via_handleTopicPublish (hv : Via env f₀ (s.flow (.event t (.topicPublish d)) c)) :
    Via env f₀ ((handleTopicPublish env s d).flow .free c) := by
  unfold handleTopicPublish
  simp only
  set topic := if d.topic = "" then "/" else d.topic
  generalize hl : topicBrokerLabels d.brokerID topic _ _ "" "" "" "" = lbl
  set s₁ := (({ s with rm := s.rm.noteSimTime s.now } : State).record .topicPublishCount 1 lbl
    none).record .topicPublishLatency d.deliveryMs lbl none with hs₁
  have hf₁ : ∀ h c, s₁.flow h c = s.flow h c := by
    intro h c
    rw [hs₁, flow_record_other rfl, flow_record_other rfl, flow_noteSimTime]
  set res := topicPartitionForPublish s₁ d.brokerID topic
    (effectiveTopicForBroker env.scenario d.brokerID).partitions d.partitionKey with hr
  have hf₂ : ∀ h c, res.2.flow h c = s.flow h c := by
    intro h c
    rw [hr, flow_topicPartitionForPublish, hf₁]
  refine via_publishToSubscribers ?_ ?_
  · simp [BrokerQueues.nextTopicPartitionOffset]
  · rw [← hf₂] at hv
    exact hv.act (.publish t d topic res.1 rfl)

/-! ### Topics: dispatch, deadlines and dead letters -/

theorem flow_scheduleTopicAckTimeout (env : Env) (r : ReqId) (b topic g : String) (sh : Shard)
    (msg : QueuedMessage) : (scheduleTopicAckTimeout s r b topic g sh msg).flow h c =
      (s.flow h c).issueAll
        (ackDeadline env s.now r (.topic b topic msg.metadata.partition g) sh msg) := by
  by_cases hp : ackTimeoutOf env (.topic b topic msg.metadata.partition g) sh > 0
  · have hms : sh.ackTimeoutMs > 0 := hp
    rw [ackDeadline, if_pos hp, scheduleTopicAckTimeout, if_pos hms, flow_scheduleAt]
    rfl
  · have hms : ¬ sh.ackTimeoutMs > 0 := hp
    rw [ackDeadline, if_neg hp, issueAll_nil, scheduleTopicAckTimeout, if_neg hms]

theorem via_dispatchTopicMessage (hs : s.brokers.shards (.topic b topic partition g) = some sh)
    (hp : sh.tryPopForDispatch = some (msg, sh'))
    (hs' : ∀ h c, s'.flow h c = (s.flow h c).setShard (.topic b topic partition g) sh')
    (hv : Via env f₀ (s.flow (.event t (.topicDequeue b topic g partition)) c)) :
    Via env f₀ ((dispatchTopicMessage env s' b topic g (.topic b topic partition g) sh' msg).flow
      .free c) := by
  have hpa : msg.metadata.partition = partition := by
    obtain ⟨-, rest, hm, -⟩ := Shard.tryPopForDispatch_eq_some hp
    have hb := (hv.reached.shape.message _ sh msg hs (by simp [hm])).2
    simpa [booked] using hb
  unfold dispatchTopicMessage
  simp only
  split
  · rw [flow_observe, hs']
    exact hv.act (.popInvalid t _ _ sh sh' msg rfl rfl hs hp)
  generalize hl : withTopicPartitionLabel _ _ = lbl
  set s₁ := (s'.record .topicDeliverCount 1 lbl none).record .topicMessageAge
    (durationToMs ((s'.record .topicDeliverCount 1 lbl none).now - msg.enqueueTime)) lbl none
    with hs₁
  have hf₁ : ∀ h c, s₁.flow h c = (s.flow h c).setShard (.topic b topic partition g) sh' := by
    intro h c
    rw [hs₁, flow_record_other rfl, flow_record_other rfl, hs']
  split
  · rw [flow_observe, flow_setShard, hf₁, setShard_setShard]
    exact hv.act (.popParentless t _ _ sh sh' msg rfl rfl hs hp)
  split
  · rw [flow_observe, hpa, flow_scheduleTopicShardRetention (f := s.flow .free c)]
    · exact hv.act (.popNoInstance t _ _ sh sh' msg rfl rfl hs hp)
    · rw [flow_setShard, hf₁, setShard_setShard]
  · rename_i hd
    rw [hpa] at hd
    rw [flow_scheduleTopicAckTimeout env, hpa]
    exact via_dispatched rfl hs hp hf₁ hd hv

theorem via_handleTopicDequeue
    (hv : Via env f₀ (s.flow (.event t (.topicDequeue b topic g partition)) c)) :
    Via env f₀ ((handleTopicDequeue env s b topic g partition).flow .free c) := by
  unfold handleTopicDequeue
  simp only
  split
  · rename_i hs
    exact via_nothingPopped rfl (by simp [hs]) hv
  · rename_i hs
    split
    · rename_i hp
      exact via_nothingPopped rfl (by simp [hs, hp]) hv
    · rename_i hp
      refine via_dispatchTopicMessage hs hp (fun h c => ?_) hv
      rw [flow_setShard, flow_noteSimTime]

theorem via_handleTopicAckTimeout {d : AckData}
    (hv : Via env f₀ (s.flow (.event t (.topicAckTimeout d)) c)) :
    Via env f₀ ((handleTopicAckTimeout env s d).flow .free c) := by
  rw [← flow_noteSimTime] at hv
  unfold handleTopicAckTimeout
  simp only
  set s₁ : State := { s with rm := s.rm.noteSimTime s.now }
  split
  · rename_i hn
    exact via_ackIgnored rfl hn hv
  rename_i hn
  obtain ⟨hk, hst⟩ := getRequest_status.1 (not_not.1 hn)
  split
  · rename_i hs
    exact hv.act (.ackVoid t _ d.child ⟨.topic d.brokerID d.topic d.partition d.group, d.message⟩
      rfl rfl hs)
  rename_i sh hs
  simp only [now_observe, now_setShard, now_record, now_scheduleAt,
    now_failTimedOutConsumer, now_observeLateAckTimeout, now_ite, ite_self, now_retention]
  split_ifs with hl
  · have ha := hv.act (.ackDead t _ d.child
      ⟨.topic d.brokerID d.topic d.partition d.group, d.message⟩ sh rfl rfl
      hk (by simpa using hst) hs hl)
    rw [job_flow] at ha
    rw [flow_scheduleAt, flow_observe, flow_scheduleAt, flow_setShard,
      flow_observe, flow_failTimedOutConsumer, flow_observeLateAckTimeout]
    exact ha
  · have ha := hv.act (.ackRequeue t _ d.child
      ⟨.topic d.brokerID d.topic d.partition d.group, d.message⟩ sh rfl rfl
      hk (by simpa using hst) hs (not_lt.1 hl))
    rw [job_flow] at ha
    rw [flow_scheduleAt, flow_observe, flow_scheduleTopicShardRetention
      (f := ((failTimedOutConsumer (observeLateAckTimeout s₁ d.child) d.child).observe
        (.released d.child (.topic d.brokerID d.topic d.partition d.group))).flow .free c)]
    · rw [flow_observe, flow_failTimedOutConsumer, flow_observeLateAckTimeout]
      exact ha
    · rw [flow_record_other rfl, flow_setShard]

theorem via_handleTopicDLQ
    (hv : Via env f₀ (s.flow (.event t (.topicDLQ b topic g partition offset)) c)) :
    Via env f₀ ((handleTopicDLQ s b topic g partition offset).flow .free c) := by
  rw [← flow_noteSimTime] at hv
  unfold handleTopicDLQ
  rw [flow_record_other rfl]
  split
  · rename_i sh hs
    exact hv.act (.deadLetter t _ _ offset sh rfl rfl hs)
  · rename_i hs
    exact hv.act (.deadLetterVoid t _ _ offset rfl rfl hs)

/-! ### Topics: expiry -/

theorem nextRetention_of_depth {now : Time} (hd : ¬ sh.depth > 0) :
    nextRetention env now ref sh = none := by
  have hm : sh.messages = [] := by
    simpa [Shard.depth] using hd
  simp [nextRetention, Shard.oldestQueuedEnqueueTime, hm]

theorem via_handleTopicRetentionExpire
    (hv : Via env f₀ (s.flow (.event t (.topicRetentionExpire b topic g partition)) c)) :
    Via env f₀ ((handleTopicRetentionExpire env s b topic g partition).flow .free c) := by
  rw [← flow_noteSimTime] at hv
  unfold handleTopicRetentionExpire
  simp only
  set s₁ : State := { s with rm := s.rm.noteSimTime s.now }
  set ret := (effectiveTopicForBroker env.scenario b).retentionMs
  split
  · exact hv.act (.discard t _ rfl rfl)
  rename_i sh hs
  obtain ⟨hret, hsh⟩ : 0 < ret ∧ s₁.brokers.shards (.topic b topic partition g) = some sh := by
    split at hs
    · cases hs
    · rename_i hret
      exact ⟨not_le.1 hret, hs⟩
  set ref := ShardRef.topic b topic partition g
  set res := ({ sh with retentionNextFireScheduled := none } : Shard).expireQueuedByRetention s₁.now
    ret with hres
  set sh' := res.1.foldl Shard.recordTopicOffsetProcessed res.2 with hsh'
  have ha := hv.act (.expire t b topic g partition sh rfl hsh hret)
  have hp : purged env s₁.now ref sh = sh' := rfl
  have he : (sh.expired s₁.now (retentionOf env ref)).isEmpty = res.1.isEmpty := by
    rw [hres, Shard.expireQueuedByRetention, List.isEmpty_map]
    rfl
  have hr : ∀ s' : State, s'.flow .free c = (s₁.flow .free c).setShard ref sh' →
      (if sh'.depth > 0 then scheduleTopicShardRetention env s' b topic partition g
        else s').flow .free c = (s₁.flow .free c).rearm env ref sh' := by
    intro s' hs'
    split_ifs with hd
    · exact flow_scheduleTopicShardRetention hs'
    · rw [hs', rearm_of_none (nextRetention_of_depth hd)]
  rw [flow_now, hp, purgedEvents, he] at ha
  split
  · rename_i hn
    rw [hr _ rfl]
    rw [if_pos hn] at ha
    exact ha
  · rename_i hn
    rw [flow_scheduleAt, hr]
    · rw [if_neg hn] at ha
      exact ha
    · rw [flow_recordTopicGauges, flow_record_other rfl]
      rfl

end SimCore.Simd
