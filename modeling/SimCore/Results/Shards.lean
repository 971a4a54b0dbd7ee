import SimCore.Resource.BrokerQueue
import Mathlib.Order.Bounds.Basic
import Mathlib.Algebra.Order.Group.Multiset
import Mathlib.Tactic.Abel

/-!
# Broker shards over whole runs

A shard is followed through every sequence of its operations, with a record of what became of the
messages that it accepted. Nothing is lost and nothing appears twice, and the backlog and the
deliveries in flight are bounded together. The commit frontier of a topic shard is the least offset
that has not been recorded, in whatever order the offsets come.

## Main definitions

* `Shard.IsNew`: the shards that the manager creates
* `Traffic`, `Traffic.run`: a shard with the fate of its messages, along a sequence of operations

## Main results

* `shard_conservation`: accepted messages are queued, outstanding, finished, evicted or expired
* `commit_frontier`: the frontier is the least offset that has not been recorded
-/

namespace SimCore.Resource

open Config List Shard

/-- The shards that the manager creates. -/
inductive Shard.IsNew : Shard → Prop
  | queue (brokerID topic : String) (eff : QueueBehavior) : IsNew (newQueueShard brokerID topic eff)
  | topic (brokerID topic : String) (partition : Nat) (group : String) (eff : TopicBehavior)
      (sub : TopicSubscriber) : IsNew (newTopicShard brokerID topic partition group eff sub)

/-! ### The commit frontier -/

namespace Shard

variable {s : Shard} {os : List Nat}

/-- The frontier is the least offset that has not been recorded, and the offsets above it wait. -/
structure Frontier (os : List Nat) (s : Shard) : Prop where
  least : IsLeast {o | o ∉ os} s.nextCommitExclusive
  pending : ∀ o, o ∈ s.pendingCommit ↔ o ∈ os ∧ s.nextCommitExclusive < o

/-- The frontier stops at the first offset that is not pending, and drops what it has passed. -/
theorem advanceCommit_spec {fuel next : Nat} {pending : List Nat} (hf : pending.length ≤ fuel)
    (hge : ∀ o ∈ pending, next ≤ o) :
    next ≤ (advanceCommit fuel next pending).1 ∧ (advanceCommit fuel next pending).1 ∉ pending ∧
      (∀ o, next ≤ o → o < (advanceCommit fuel next pending).1 → o ∈ pending) ∧
      ∀ o, o ∈ (advanceCommit fuel next pending).2 ↔
        o ∈ pending ∧ (advanceCommit fuel next pending).1 < o := by
  induction fuel generalizing next pending with
  | zero =>
    obtain rfl := eq_nil_of_length_eq_zero (Nat.le_zero.1 hf)
    refine ⟨le_rfl, by simp, fun o hle hlt => absurd hle (not_le.2 hlt), by simp [advanceCommit]⟩
  | succ fuel ih =>
    rw [advanceCommit]
    split_ifs with hm
    · have hs : (pending.filter (· ≠ next)).length ≤ fuel := by
        have hlt : (pending.filter (· ≠ next)).length < pending.length :=
          length_filter_lt_length_iff_exists.2 ⟨next, hm, by simp⟩
        omega
      have hl : ∀ o ∈ pending.filter (· ≠ next), next + 1 ≤ o := by
        intro o ho
        obtain ⟨ho, hne⟩ := mem_filter.1 ho
        exact Nat.lt_of_le_of_ne (hge o ho) (Ne.symm (by simpa using hne))
      obtain ⟨hle, hn, hb, hr⟩ := ih hs hl
      generalize advanceCommit fuel (next + 1) (pending.filter (· ≠ next)) = r at *
      refine ⟨by omega, fun h => hn ?_, fun o ho hlt => ?_, fun o => ?_⟩
      · exact mem_filter.2 ⟨h, by simp; omega⟩
      · rcases Nat.eq_or_lt_of_le ho with rfl | ho
        · exact hm
        · exact mem_of_mem_filter (hb o ho hlt)
      · rw [hr, mem_filter]
        constructor
        · exact fun h => ⟨h.1.1, h.2⟩
        · exact fun h => ⟨⟨h.1, by simp; omega⟩, h.2⟩
    · refine ⟨le_rfl, hm, fun o hle hlt => absurd hle (not_le.2 hlt), fun o => ?_⟩
      constructor
      · intro h
        refine ⟨h, Nat.lt_of_le_of_ne (hge o h) ?_⟩
        rintro rfl
        exact hm h
      · exact And.left

/-- Recording an offset moves the frontier forward, over what has been recorded by then. -/
theorem Frontier.record (h : Frontier os s) (o : Nat) :
    Frontier (os ++ [o]) (s.recordTopicOffsetProcessed o) ∧
      s.nextCommitExclusive ≤ (s.recordTopicOffsetProcessed o).nextCommitExclusive := by
  have hb : ∀ k, k < s.nextCommitExclusive → k ∈ os := fun k hk =>
    by_contra fun hnot => absurd (h.least.2 hnot) (not_le.2 hk)
  unfold recordTopicOffsetProcessed
  split
  · -- an offset below the frontier has been recorded before
    rename_i hlt
    have hm : ∀ k, k ∈ os ++ [o] ↔ k ∈ os := fun k => by
      simp only [mem_append, mem_singleton, or_iff_left_iff_imp]
      rintro rfl
      exact hb k hlt
    exact ⟨⟨by simpa only [hm] using h.least, fun k => by rw [hm, h.pending]⟩, le_rfl⟩
  · rename_i hge
    obtain ⟨pending, hp⟩ : ∃ pending, pending =
      if o ∈ s.pendingCommit then s.pendingCommit else o :: s.pendingCommit := ⟨_, rfl⟩
    have hm : ∀ k, k ∈ pending ↔ k ∈ os ++ [o] ∧ s.nextCommitExclusive ≤ k := by
      intro k
      have hn : s.nextCommitExclusive ∉ os := h.least.1
      have hold := h.pending k
      have ha : k ∈ pending ↔ k ∈ s.pendingCommit ∨ k = o := by
        rw [hp]
        split_ifs with hin
        · exact ⟨.inl, fun hk => hk.elim id fun heq => heq ▸ hin⟩
        · rw [mem_cons, or_comm]
      rw [ha, hold, mem_append, mem_singleton]
      constructor
      · rintro (⟨hk, hlt⟩ | rfl)
        · exact ⟨.inl hk, hlt.le⟩
        · exact ⟨.inr rfl, not_lt.1 hge⟩
      · rintro ⟨hk | rfl, hle⟩
        · exact .inl ⟨hk, Nat.lt_of_le_of_ne hle fun heq => hn (heq ▸ hk)⟩
        · exact .inr rfl
    obtain ⟨hle, hnot, hpa, hr⟩ := advanceCommit_spec (Nat.le_refl pending.length)
      fun k hk => ((hm k).1 hk).2
    simp only [← hp]
    refine ⟨⟨⟨fun hin => hnot ((hm _).2 ⟨hin, hle⟩), fun k hk => ?_⟩, fun k => ?_⟩, hle⟩
    · by_contra hlt
      rcases Nat.lt_or_ge k s.nextCommitExclusive with hk' | hk'
      · exact hk (mem_append_left _ (hb k hk'))
      · exact hk ((hm k).1 (hpa k hk' (not_le.1 hlt))).1
    · rw [hr, hm]
      exact ⟨fun h => ⟨h.1.1, h.2⟩, fun h => ⟨⟨h.1, hle.trans h.2.le⟩, h.2⟩⟩

theorem Frontier.foldl_record (h : Frontier os s) (new : List Nat) :
    Frontier (os ++ new) (new.foldl recordTopicOffsetProcessed s) ∧
      s.nextCommitExclusive ≤ (new.foldl recordTopicOffsetProcessed s).nextCommitExclusive := by
  induction new generalizing os s with
  | nil => simpa using h
  | cons o _ ih =>
    obtain ⟨hs, hle⟩ := h.record o
    obtain ⟨hr, hle'⟩ := ih hs
    exact ⟨by simpa using hr, hle.trans hle'⟩

theorem IsNew.frontier (h : s.IsNew) : Frontier [] s := by
  cases h with
  | queue | topic => exact ⟨⟨not_mem_nil, fun _ _ => Nat.zero_le _⟩, by
      simp [newQueueShard, newTopicShard]⟩

end Shard

/-- After any offsets have been recorded on a new shard, in any order and with repetitions, the
frontier is the least offset not among them, it has never moved back, and the offsets above it are
pending. -/
theorem commit_frontier {s : Shard} (hs : s.IsNew) (os : List Nat) :
    IsLeast {o | o ∉ os} (os.foldl Shard.recordTopicOffsetProcessed s).nextCommitExclusive ∧
      (∀ before after, os = before ++ after →
        (before.foldl Shard.recordTopicOffsetProcessed s).nextCommitExclusive ≤
          (os.foldl Shard.recordTopicOffsetProcessed s).nextCommitExclusive) ∧
      ∀ o, o ∈ (os.foldl Shard.recordTopicOffsetProcessed s).pendingCommit ↔
        o ∈ os ∧ (os.foldl Shard.recordTopicOffsetProcessed s).nextCommitExclusive < o := by
  obtain ⟨hf, -⟩ := hs.frontier.foldl_record os
  refine ⟨hf.least, fun before after hos => ?_, hf.pending⟩
  rw [hos, foldl_append]
  exact ((hs.frontier.foldl_record before).1.foldl_record after).2

/-- The offsets 2, 0, 2, 4 on a new shard leave the frontier at 1. -/
theorem commit_frontier_gap : IsLeast {o | o ∉ [2, 0, 2, 4]}
      ([2, 0, 2, 4].foldl Shard.recordTopicOffsetProcessed
        (newQueueShard "b" "t" {})).nextCommitExclusive :=
  (commit_frontier (.queue "b" "t" {}) [2, 0, 2, 4]).1

/-! ### What becomes of the messages -/

/-- An operation on a shard. `consumerFinished` and `requeueFront` end the pop at the given place
among those that are outstanding; a requeue returns the popped message. -/
inductive ShardOp where
  | enqueue (m : QueuedMessage)
  | tryPopForDispatch
  | consumerFinished (i : Nat)
  | requeueFront (i : Nat)
  | expireQueuedByRetention (now : Time) (retentionMs : Int)

/-- The operation puts a message back. -/
def ShardOp.Requeues : ShardOp → Prop
  | .requeueFront _ => True
  | _ => False

/-- A shard with what became of the messages that it accepted, and the order of its pops. -/
structure Traffic where
  shard : Shard
  accepted : List QueuedMessage := []
  popped : List QueuedMessage := []
  outstanding : List QueuedMessage := []
  finished : List QueuedMessage := []
  evicted : List QueuedMessage := []
  expired : List QueuedMessage := []

namespace Traffic

variable {t t' : Traffic}

/-- One operation; nothing ends a pop that is not outstanding. -/
def step (t : Traffic) : ShardOp → Option Traffic
  | .enqueue m =>
    let result := (t.shard.enqueue m).1
    some { t with
      shard := (t.shard.enqueue m).2
      accepted := if result.accepted then t.accepted ++ [m] else t.accepted
      evicted := if result.droppedOldest then t.evicted ++ t.shard.messages.take 1 else t.evicted }
  | .tryPopForDispatch =>
    match t.shard.tryPopForDispatch with
    | none => some t
    | some (m, shard) =>
      some { t with shard := shard, popped := t.popped ++ [m], outstanding := m :: t.outstanding }
  | .consumerFinished i => t.outstanding[i]?.map fun m =>
      { t with shard := t.shard.consumerFinished, outstanding := t.outstanding.eraseIdx i
               finished := m :: t.finished }
  | .requeueFront i => t.outstanding[i]?.map fun m =>
      { t with shard := t.shard.requeueFront m, outstanding := t.outstanding.eraseIdx i }
  | .expireQueuedByRetention now retentionMs =>
    some { t with
      shard := (t.shard.expireQueuedByRetention now retentionMs).2
      expired := t.expired ++ t.shard.expired now retentionMs }

/-- A sequence of operations. -/
def run (ops : List ShardOp) (t : Traffic) : Option Traffic :=
  ops.foldlM step t

/-- Accepted messages are in exactly one place; deliveries in flight are the outstanding pops and
take at most the slots that there are; backlog and deliveries are bounded together. -/
structure Conserved (t : Traffic) : Prop where
  accepted : (t.accepted : Multiset QueuedMessage) =
    t.shard.messages + t.outstanding + t.finished + t.evicted + t.expired
  counts : t.shard.inFlight = t.outstanding.length ∧ 0 < t.shard.maxConcurrency ∧
    t.shard.inFlight ≤ t.shard.maxConcurrency ∧
    (0 < t.shard.capacity → (t.shard.messages.length + t.shard.inFlight : Int) ≤
      t.shard.capacity + t.shard.maxConcurrency)

/-- What has left the backlog was accepted before what is still there. -/
def InOrder (t : Traffic) : Prop :=
  ∃ gone, t.accepted = gone ++ t.shard.messages ∧ t.popped.Sublist gone

theorem coe_eraseIdx {l : List QueuedMessage} {i : Nat} {m : QueuedMessage} (h : l[i]? = some m) :
    (l : Multiset QueuedMessage) = {m} + l.eraseIdx i ∧ l.length = (l.eraseIdx i).length + 1 := by
  obtain ⟨hi, rfl⟩ := List.getElem?_eq_some_iff.1 h
  have hp := (getElem_cons_eraseIdx_perm hi).symm
  exact ⟨Multiset.coe_eq_coe.2 hp, hp.length_eq⟩

theorem expired_prefix (s : Shard) (now : Time) (retentionMs : Int) :
    s.messages = s.expired now retentionMs ++
      (s.expireQueuedByRetention now retentionMs).2.messages := by
  have hp : s.expired now retentionMs <+: s.messages := by
    unfold Shard.expired
    split
    · exact nil_prefix
    · exact takeWhile_prefix _
  obtain ⟨_, hr⟩ := hp
  simp only [expireQueuedByRetention, ← hr, drop_left]

theorem coe_cons (m : QueuedMessage) (ms : List QueuedMessage) :
    ((m :: ms : List QueuedMessage) : Multiset QueuedMessage) = {m} + ms := rfl

theorem Conserved.step (h : Conserved t) {op : ShardOp} (hok : t.step op = some t') :
    Conserved t' := by
  obtain ⟨ha, hc⟩ := h
  cases op with
  | enqueue m =>
    cases hok
    obtain ⟨⟨hno, hk⟩, he⟩ | ⟨⟨hr, hy⟩, he⟩ | ⟨_, rest, hm, hy, hd, -, he⟩ :=
      t.shard.enqueue_cases m
    · simp only [hno, hk, he]
      exact ⟨ha, hc⟩
    · have hsh : 0 < t.shard.capacity → (t.shard.messages.length : Int) < t.shard.capacity :=
        fun hcap => by simpa [capacityReached, hcap] using hr
      simp only [hy, he]
      constructor
      · simp only [if_true, Bool.false_eq_true, if_false, ← Multiset.coe_add, ha]
        abel
      · simp only [length_append, length_singleton]
        omega
    · simp only [hy, hd, he]
      simp only [hm, length_cons] at hc
      constructor
      · simp only [if_true, hm, take_succ_cons, take_zero, ← Multiset.coe_add, ha, coe_cons]
        abel
      · simp only [length_append, length_singleton]
        omega
  | tryPopForDispatch =>
    rw [Traffic.step] at hok
    split at hok
    · cases hok
      exact ⟨ha, hc⟩
    · rename_i hp
      cases hok
      obtain ⟨hsat, _, hm, rfl⟩ := tryPopForDispatch_eq_some hp
      have hlt : (t.shard.inFlight : Int) < t.shard.maxConcurrency := by
        simpa [saturated, hc.2.1] using hsat
      simp only [hm, length_cons] at hc
      constructor
      · rw [ha, hm, coe_cons, coe_cons]
        abel
      · simp only [length_cons]
        omega
  | consumerFinished =>
    obtain ⟨m, hm, rfl⟩ := Option.map_eq_some_iff.1 hok
    obtain ⟨hcoe, hl⟩ := coe_eraseIdx hm
    constructor
    · rw [ha, hcoe, coe_cons]
      simp only [consumerFinished]
      abel
    · simp only [consumerFinished]
      omega
  | requeueFront =>
    obtain ⟨m, hm, rfl⟩ := Option.map_eq_some_iff.1 hok
    obtain ⟨hcoe, hl⟩ := coe_eraseIdx hm
    constructor
    · rw [ha, hcoe]
      simp only [requeueFront, coe_cons]
      abel
    · simp only [requeueFront, length_cons]
      omega
  | expireQueuedByRetention now retentionMs =>
    cases hok
    have hs := expired_prefix t.shard now retentionMs
    have hl := congrArg length hs
    constructor
    · rw [ha, hs]
      simp only [← Multiset.coe_add]
      abel
    · simp only [expireQueuedByRetention, length_append] at hl ⊢
      omega

theorem InOrder.step (h : InOrder t) {op : ShardOp} (hop : ¬ op.Requeues)
    (hok : t.step op = some t') : InOrder t' := by
  obtain ⟨gone, ha, hp⟩ := h
  cases op with
  | enqueue m =>
    cases hok
    obtain ⟨⟨hno, -⟩, he⟩ | ⟨⟨-, hy⟩, he⟩ | ⟨oldest, rest, hm, hy, -, -, he⟩ :=
      t.shard.enqueue_cases m
    · exact ⟨gone, by simp [hno, he, ha], hp⟩
    · exact ⟨gone, by simp [hy, he, ha], hp⟩
    · refine ⟨gone ++ [oldest], ?_, hp.trans (sublist_append_left ..)⟩
      simp [hy, he, ha, hm]
  | tryPopForDispatch =>
    rw [Traffic.step] at hok
    split at hok
    · cases hok
      exact ⟨gone, ha, hp⟩
    · rename_i m shard hpop
      cases hok
      obtain ⟨-, _, hm, rfl⟩ := tryPopForDispatch_eq_some hpop
      exact ⟨gone ++ [m], by simp [ha, hm], hp.append (List.Sublist.refl _)⟩
  | consumerFinished =>
    obtain ⟨m, -, rfl⟩ := Option.map_eq_some_iff.1 hok
    exact ⟨gone, ha, hp⟩
  | requeueFront => exact absurd trivial hop
  | expireQueuedByRetention now retentionMs =>
    cases hok
    refine ⟨gone ++ t.shard.expired now retentionMs, ?_, hp.trans (sublist_append_left ..)⟩
    rw [append_assoc, ← expired_prefix]
    exact ha

theorem run_induction {P : Traffic → Prop} {C : ShardOp → Prop}
    (hs : ∀ {t t' op}, C op → t.step op = some t' → P t → P t') {ops : List ShardOp}
    (ho : ∀ op ∈ ops, C op) (hrun : run ops t = some t') (ht : P t) : P t' := by
  induction ops generalizing t with
  | nil =>
    cases hrun
    exact ht
  | cons op _ ih =>
    obtain ⟨_, hok, hr⟩ := Option.bind_eq_some_iff.1 hrun
    exact ih (fun op' hop => ho op' (mem_cons_of_mem _ hop)) hr
      (hs (ho op (mem_cons_self ..)) hok ht)

end Traffic

theorem Shard.IsNew.conserved {s : Shard} (hs : s.IsNew) : Traffic.Conserved { shard := s } := by
  cases hs with
  | queue | topic =>
    refine ⟨rfl, rfl, ?_⟩
    simp only [newQueueShard, newTopicShard, length_nil]
    split <;> omega

/-- Along every sequence of operations on a shard in which only outstanding pops are ended: an
accepted message is queued, outstanding, finished, evicted or expired; the deliveries in flight are
the outstanding pops; the slots and the joint bound on backlog and deliveries are kept; and without
requeues messages are popped in the order in which they were accepted. -/
theorem shard_conservation {s : Shard} (hs : s.IsNew) {ops : List ShardOp} {t : Traffic}
    (hrun : Traffic.run ops { shard := s } = some t) :
    ((t.accepted : Multiset QueuedMessage) =
        t.shard.messages + t.outstanding + t.finished + t.evicted + t.expired) ∧
      t.shard.inFlight = t.outstanding.length ∧
      (t.shard.inFlight : Int) ≤ t.shard.maxConcurrency ∧
      (0 < t.shard.capacity → (t.shard.messages.length + t.shard.inFlight : Int) ≤
        t.shard.capacity + t.shard.maxConcurrency) ∧
      ((∀ op ∈ ops, ¬ op.Requeues) → t.popped.Sublist t.accepted) := by
  have hall := Traffic.run_induction (C := fun _ => True) (fun _ hok h => h.step hok)
    (fun _ _ => trivial) hrun hs.conserved
  refine ⟨hall.accepted, hall.counts.1, hall.counts.2.2.1, hall.counts.2.2.2, fun ho => ?_⟩
  have hst : Traffic.InOrder { shard := s } := by
    cases hs with
    | queue | topic => exact ⟨[], rfl, List.Sublist.refl _⟩
  obtain ⟨_, ha, hp⟩ := Traffic.run_induction
    (fun hop hok h => Traffic.InOrder.step h hop hok) ho hrun hst
  exact ha ▸ hp.trans (sublist_append_left ..)

/-- Of three messages that are accepted, two are popped and one of these is finished. -/
def threeMessages : List ShardOp :=
  [.enqueue ⟨1, 0, 0, 7, {}, 0⟩, .enqueue ⟨2, 0, 0, 7, {}, 0⟩, .tryPopForDispatch,
    .enqueue ⟨3, 0, 0, 7, {}, 0⟩, .tryPopForDispatch, .consumerFinished 0]

theorem shard_conservation_threeMessages :
    ∃ t, Traffic.run threeMessages
        { shard := newQueueShard "b" "t" { consumerConcurrency := 2 } } = some t ∧
      t.shard.messages.length = 1 ∧ t.shard.inFlight = 1 ∧ t.outstanding.length = 1 ∧
      (t.accepted : Multiset QueuedMessage) =
        t.shard.messages + t.outstanding + t.finished + t.evicted + t.expired ∧
      t.popped.Sublist t.accepted := by
  obtain ⟨t, hr, hl⟩ : ∃ t, Traffic.run threeMessages
      { shard := newQueueShard "b" "t" { consumerConcurrency := 2 } } = some t ∧
        t.shard.messages.length = 1 ∧ t.shard.inFlight = 1 := ⟨_, rfl, rfl, rfl⟩
  obtain ⟨ha, hi, -, -, hp⟩ := shard_conservation (.queue "b" "t" { consumerConcurrency := 2 }) hr
  exact ⟨t, hr, hl.1, hl.2, hi ▸ hl.2, ha, hp (by simp [threeMessages, ShardOp.Requeues])⟩

end SimCore.Resource
