import SimCore.Resource.Ledger
import SimCore.Simd.Run
import Mathlib.Tactic.Simps.Basic
import Mathlib.Algebra.Order.Group.Multiset

/-!
# The protocol state of a run

What the request and broker protocols of a run depend on, without the rest of the run state: events
with their times, the latest first, requests as jobs, of the resource manager only its books, and of
the samples only those of the ingress accounting and of the service latency.

A handler works in several atomic actions (`SimCore.Protocol.Act`). Between them it has something in
its hand: the event it is handling, a request whose fate it has to decide, or a published offset
that some consumer groups have not received yet. It may also have closed requests that it has not
yet handed to the run manager. At the end of a handler the hand is free and nothing is left to hand
over.

## Main definitions

* `Flow`: the protocol state, with the operations that the actions are composed of
* `Flow.PendingAt`, `Flow.Pending`: the pending events, the one in hand included
* `State.flow`: the protocol state of a run state
-/

namespace SimCore.Simd

open Resource

/-- The books after a request has given back what it has allocated. -/
def Job.released (j : Job) (L : Ledger) : Ledger :=
  match j.instanceID with
  | none => L
  | some id =>
    let L := if j.allocatedCPUMs.isSome then L.modify id Account.leave else L
    match j.allocatedMemoryMB with
    | some mb => L.modify id (Account.give mb)
    | none => L

/-- The books after the CPU work that a spawn cost its caller. -/
def EventKind.arrived (L : Ledger) : EventKind → Ledger
  | .callerOverheadEnd o => L.modify o.instanceID Account.leave
  | _ => L

end SimCore.Simd

namespace SimCore.Protocol

open Simd Resource

/-- Why a request failed before its local work. -/
inductive Cause where
  | dependency
  | localFailure
  | resources
deriving DecidableEq

/-- How the trace shows the fate of a request that failed before its local work. -/
def Cause.obs (r : ReqId) (fate : Fate) : Cause → Obs
  | .dependency => .dependencyFailed r fate
  | .localFailure => .startFailed r fate
  | .resources => .startFailed r fate

/-- How far a request whose local work is finished is with its downstream calls: nothing has been
settled, its service latency has been recorded, or its finalisation has been deferred. -/
inductive Phase where
  | opened
  | counted
  | deferred
deriving DecidableEq

/-- What the handler at work has in its hand. -/
inductive Hand where
  | free
  /-- An event that has left the queue. -/
  | event (t : Time) (k : EventKind)
  /-- A request that failed before its local work; it may be retried. -/
  | failed (r : ReqId) (cause : Cause)
  /-- A request whose local work is finished; its downstream calls are to be made. -/
  | done (r : ReqId) (phase : Phase)
  /-- A request that is to be finalised, perhaps as failed. -/
  | due (r : ReqId) (failed : Bool)
  /-- A request whose outcome is to be reported to its parent. -/
  | report (r p : ReqId) (failed : Bool)
  /-- A published offset that some consumer groups have not received yet. -/
  | fanout (d : PublishData) (topic : String) (partition : Nat) (groups : List String)
deriving DecidableEq

/-- The hand does not hold an event. -/
def Hand.idle : Hand → Bool
  | .event _ _ => false
  | _ => true

/-- Samples of the ingress accounting, logical failures and ingress counts, and of the service
latency. -/
def observedSample (x : Sample) : Bool :=
  match x.metric with
  | .ingressLogicalFailure => true
  | .requestCount => x.labels.lookup "origin" == some originIngress
  | .serviceRequestLatency => true
  | _ => false

/-- The job of a request; a request that does not exist has the default job. -/
def jobAt (jobs : List Job) (r : Nat) : Job :=
  jobs[r]?.getD default

theorem jobAt_of_length_le {jobs : List Job} {r : Nat} (h : jobs.length ≤ r) :
    jobAt jobs r = default := by
  simp [jobAt, h]

@[simp] theorem jobAt_nil (r : Nat) : jobAt [] r = default := rfl

@[simp] theorem jobAt_modify (jobs : List Job) (r x : Nat) (g : Job → Job) :
    jobAt (jobs.modify r g) x =
      if x = r ∧ x < jobs.length then g (jobAt jobs x) else jobAt jobs x := by
  unfold jobAt
  by_cases hx : x < jobs.length
  · by_cases hr : r = x <;> simp [hx, hr, eq_comm]
  · simp [hx]

@[simp] theorem jobAt_append (jobs : List Job) (j : Job) (x : Nat) :
    jobAt (jobs ++ [j]) x = if x = jobs.length then j else jobAt jobs x := by
  unfold jobAt
  rcases Nat.lt_trichotomy x jobs.length with hx | hx | hx
  · rw [List.getElem?_append_left hx, if_neg (by omega)]
  · simp [hx]
  · rw [if_neg (by omega), List.getElem?_eq_none (by simp; omega), List.getElem?_eq_none (by omega)]

/-- The protocol state of a run. -/
structure Flow where
  now : Time
  hand : Hand
  closing : List ReqId
  events : List (Time × EventKind)
  jobs : List Job
  pending : ReqId → Option Nat
  calls : List ReqId
  run : RunManager
  refused : List ReqId
  ledger : Ledger
  shards : ShardRef → Option Shard
  watermark : String → String → Nat → Nat
  nextMsg : Nat
  samples : Multiset Sample
  trace : Multiset Obs
  backdated : Bool

namespace Flow

variable (f : Flow)

@[simp] abbrev job (r : ReqId) : Job :=
  jobAt f.jobs r

/-- The number of requests created so far. -/
@[simp] abbrev size : Nat :=
  f.jobs.length

/-- An event is pending at a time, or in hand. -/
def PendingAt (t : Time) (k : EventKind) : Prop :=
  f.hand = .event t k ∨ (t, k) ∈ f.events

/-- An event is pending or in hand. -/
def Pending (k : EventKind) : Prop :=
  ∃ t, f.PendingAt t k

/-! ### Operations -/

/-- Puts something else into the hand. -/
@[simps] def take (h : Hand) : Flow := { f with hand := h }

/-- Changes the job of a request. -/
@[simps] def setJob (r : ReqId) (g : Job → Job) : Flow := { f with jobs := f.jobs.modify r g }

/-- Creates a request. -/
@[simps] def addJob (j : Job) : Flow := { f with jobs := f.jobs ++ [j] }

@[simps] def issue (t : Time) (k : EventKind) : Flow := { f with events := (t, k) :: f.events }

/-- An event is scheduled from outside. -/
@[simps] def schedule (t : Time) (k : EventKind) : Flow :=
  { f with events := (t, k) :: f.events, backdated := f.backdated || decide (t < f.now) }

/-- Issues several events, the last one first. -/
@[simps] def issueAll (es : List (Time × EventKind)) : Flow := { f with events := es ++ f.events }

@[simps] def note (o : Obs) : Flow := { f with trace := o ::ₘ f.trace }

/-- Notes an observation if a condition holds. -/
@[simps!] def noteIf (c : Prop) [Decidable c] (o : Obs) : Flow :=
  { f with trace := if c then o ::ₘ f.trace else f.trace }

/-- Records a sample, if the protocol state keeps it. -/
@[simps] def sample (x : Sample) : Flow :=
  { f with samples := if observedSample x then x ::ₘ f.samples else f.samples }

/-- The failure of a request; an ingress request counts as a logical failure. -/
@[simps] def blame (r : ReqId) (lbl : Labels) : Flow :=
  { f with samples :=
      if (f.job r).parent = none then ⟨.ingressLogicalFailure, 1, f.now, lbl, some r⟩ ::ₘ f.samples
      else f.samples }

/-- Sets the counter of outstanding calls of a request. -/
@[simps] def setPending (p : ReqId) (n : Option Nat) : Flow :=
  { f with pending := Function.update f.pending p n }

/-- A request makes `n` logical calls. -/
@[simps] def addCalls (p : ReqId) (n : Nat) : Flow :=
  { f with calls := f.calls ++ List.replicate n p }

/-- Adds a request to the run manager, or remembers that a cap refused it. -/
@[simps] def register (r : ReqId) : Flow :=
  { f with run := f.run.addRequest r
           refused := if f.run.refusal.isSome then r :: f.refused else f.refused }

@[simps] def setShard (ref : ShardRef) (sh : Shard) : Flow :=
  { f with shards := Function.update f.shards ref (some sh) }

/-- Changes the account of an instance. -/
@[simps] def book (id : String) (g : Account → Account) : Flow :=
  { f with ledger := f.ledger.modify id g }

/-- Replaces the books. -/
@[simps] def setLedger (L : Ledger) : Flow := { f with ledger := L }

/-- Gives back what a request has allocated. -/
@[simps] def release (r : ReqId) : Flow := { f with ledger := (f.job r).released f.ledger }

/-- The CPU work that a spawn cost its caller is over. -/
@[simps] def arrive (k : EventKind) : Flow := { f with ledger := k.arrived f.ledger }

/-- A request has a failed call, which it learns of only while it is known. -/
@[simps!] def failSubtree (p : ReqId) (failed : Bool) : Flow :=
  { f with jobs := f.jobs.modify p fun j =>
      { j with subtreeFailed := j.subtreeFailed || failed && f.run.knows p } }

/-- Marks a request as closed but not yet handed over. -/
@[simps] def close (r : ReqId) : Flow := { f with closing := r :: f.closing }

/-- Hands the last closed request over to the run manager. -/
@[simps] def handOver (r : ReqId) (failed sampled : Bool) : Flow :=
  { f with closing := f.closing.tail, run := f.run.finalizeRequest r failed sampled
           trace := .finalized r ::ₘ f.trace }

/-- Takes an event off the queue. -/
@[simps] def pop (t : Time) (k : EventKind) (rest : List (Time × EventKind)) : Flow :=
  { f with now := t, hand := .event t k, events := rest }

/-- The resource manager is scaled; `busy` are the instances told to drain although a start on them
is pending. -/
@[simps] def rescale (L : Ledger) (busy : List String) : Flow :=
  { f with ledger := L, trace := (busy.map Obs.busyDrain : List Obs) + f.trace }

end Flow

end SimCore.Protocol

namespace SimCore.Simd

open Protocol

/-- The protocol state of a run state, for a handler with the given hand and closed requests. -/
@[simps now hand closing events pending calls run ledger shards watermark nextMsg trace]
def State.flow (s : State) (h : Hand) (c : List ReqId) : Flow where
  now := s.now
  hand := h
  closing := c
  events := s.eng.pending
  jobs := s.heap.map Request.toJob
  pending := s.pendingSync
  calls := s.calls
  run := s.run
  refused := s.eng.refusedRequests
  ledger := s.rm.ledger
  shards := s.brokers.shards
  watermark := s.brokers.topicPartitionHW
  nextMsg := s.nextMsg
  samples := (s.samples.filter observedSample : List Sample)
  trace := (s.trace : List Obs)
  backdated := s.backdated

end SimCore.Simd
