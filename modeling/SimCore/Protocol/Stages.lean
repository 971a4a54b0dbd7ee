import SimCore.Protocol.Jobs

/-!
# The local life of a request

A request is queued while its start event is pending and running while its completion event is
pending; after that it has finished its local work, or it failed at its start. This module ties the
stage of every request to its pending events, to its status and to the counter of its outstanding
calls.

## Main definitions

* `Steady`: the combinations of stage, status and flags that a job can have
* `Stages`: the invariants that tie jobs to events and counters

## Main results

* `Reached.stages`: the invariants hold in every reached protocol state
-/

namespace SimCore.Protocol

open Simd Resource

variable {env : Env} {f f' : Flow} {x : ReqId}

/-- The combinations of stage, status and flags that a job can have. -/
def Steady (j : Job) : Prop :=
  match j.stage with
  | .queued => j.desFinalized = false ∧ j.status = .pending ∧ j.brokerAckTimedOut = false
  | .running => j.desFinalized = false ∧ (j.status = .processing ∧ j.brokerAckTimedOut = false ∨
        j.status = .failed ∧ j.brokerAckTimedOut = true)
  | .worked => j.desFinalized = true ∧ (j.status = .completed ∨ j.status = .failed) ∨
      j.desFinalized = false ∧ (j.status = .processing ∧ j.brokerAckTimedOut = false ∨
        j.status = .failed ∧ j.brokerAckTimedOut = true)
  | .idle => j.desFinalized = true ∧ (j.status = .completed ∨ j.status = .failed) ∨
      j.desFinalized = false ∧ (j.status = .pending ∨ j.status = .failed)

/-- What the hand says about the request it names. -/
def HandStage (f : Flow) : Hand → Prop
  | .failed r _ => (f.job r).stage = .idle ∧ (f.job r).status = .failed ∧
      (f.job r).desFinalized = false
  | .done r phase => (f.job r).stage = .worked ∧ (f.job r).status = .processing ∧
      (f.job r).desFinalized = false ∧ f.pending r = none ∧
      (phase = .deferred ↔ (f.job r).queueAckDeadline.isSome = true)
  | .due r failed => f.pending r = none ∧ ((f.job r).stage = .worked ∨
      (f.job r).stage = .idle ∧ (f.job r).status = .failed) ∧
      (failed = true → (f.job r).queueAckDeadline = none)
  | _ => True

/-- The invariants that tie jobs to events and counters. -/
structure Stages (f : Flow) : Prop where
  steady : ∀ r, Steady (f.job r)
  /-- A queued request has exactly one start event. -/
  queued : ∀ r, f.count (role · = .start r) = if (f.job r).stage = .queued then 1 else 0
  /-- A running request has exactly one completion event. -/
  running : ∀ r, f.count (role · = .complete r) = if (f.job r).stage = .running then 1 else 0
  /-- Only a request with finished local work has a publish acknowledgement pending. -/
  finalizing : ∀ r, 0 < f.count (role · = .finalize r) → (f.job r).stage = .worked
  /-- Only a request with finished local work that is not finalised waits for calls. -/
  waiting : ∀ r n, f.pending r = some n →
    0 < n ∧ (f.job r).stage = .worked ∧ (f.job r).desFinalized = false
  /-- Only a request with finished local work has a publish acknowledgement to wait for. -/
  deadline : ∀ r, (f.job r).queueAckDeadline ≠ none → (f.job r).stage = .worked
  /-- The metrics of a request are deferred while it waits for a publish acknowledgement. -/
  deferred : ∀ r, (f.job r).deferredQueueFinalize = (f.job r).queueAckDeadline.isSome
  hand : HandStage f f.hand
  closing : ∀ r ∈ f.closing, (f.job r).desFinalized = true
  closing_nodup : f.closing.Nodup

namespace Stages

variable (hs : Stages f) {t : Time} {r : ReqId}

include hs

theorem of_start {i : String} (hh : f.hand = .event t (.requestStart r i)) :
    (f.job r).stage = .queued := by
  have hc := hs.queued r
  by_contra hne
  simp [Flow.count, hh, hne] at hc

theorem of_complete (hh : f.hand = .event t (.requestComplete r)) : (f.job r).stage = .running := by
  have hc := hs.running r
  by_contra hne
  simp [Flow.count, hh, hne] at hc

theorem of_finalize (hh : f.hand = .event t (.asyncParentFinalize r)) : (f.job r).stage = .worked :=
  hs.finalizing r (by simp [Flow.count, hh])

theorem pending_eq_none (hr : (f.job r).stage ≠ .worked ∨ (f.job r).desFinalized = true) :
    f.pending r = none := by
  cases hp : f.pending r with
  | none => rfl
  | some n =>
    obtain ⟨-, hst, hf⟩ := hs.waiting r n hp
    rcases hr with hr | hr
    · exact absurd hst hr
    · rw [hf] at hr
      cases hr

theorem deadline_eq_none (hr : (f.job r).stage ≠ .worked) : (f.job r).queueAckDeadline = none := by
  by_contra hne
  exact hr (hs.deadline r hne)

end Stages

section

variable (h : Turn env f f')
include h

theorem Turn.steady (hsh : Shape env f) (hs : Stages f) (x : ReqId) : Steady (f'.job x) := by
  have hsteady := hs.steady x
  have hha := hs.hand
  refine h.forall_job hsh x (fun j hj => ?_) (fun _ j hj => ?_) fun _ => by simp [Steady]
  · cases hj with
    | startDefer t i _ _ hh | startRun t i _ _ _ _ hh | startLost t i hh | startFail t i _ _ hh
    | startRefuse _ _ _ _ hh =>
      have hst := hs.of_start hh
      simp_all [Steady]
    | complete _ hh =>
      have hst := hs.of_complete hh
      simp_all [Steady]
    | closeDone hh hf | closeStale hh hf _ | closeFailed _ hh hf =>
      simp only [HandStage, hh] at hha
      rcases hha.2.1 with hst | ⟨hst, -⟩ <;> simp_all [Steady]
    | ackTimeout => cases hst : (f.job x).stage <;> simp_all [Steady]
    | _ => exact hsteady
  · cases hj <;> simp [Steady, SpawnCore.job, consumerJob]

/-- The start and completion events of a request follow its stage. -/
theorem Turn.counted (hsh : Shape env f) (hs : Stages f) (x : ReqId) :
    f'.count (role · = .start x) = (if (f'.job x).stage = .queued then 1 else 0) ∧
      f'.count (role · = .complete x) = if (f'.job x).stage = .running then 1 else 0 := by
  have hx := And.intro (hs.queued x) (hs.running x)
  have hn := default_origin (le_refl f.size)
  unfold Flow.count at hx ⊢
  rcases h with h | h <;> cases h
  case startDefer hh _ _ _ _ | startRun hh _ _ _ _ | startLost hh | startFail hh | startMissing hh _
    | startRefuse hh =>
    have hst := hs.of_start hh
    have hr := hsh.fits_hand hh
    simp [hh, Flow.Fits] at hx hr hst ⊢
    grind -ring -linarith
  case complete hh _ _ | completeAck hh _ _ _ | completeLate hh _ =>
    have hst := hs.of_complete hh
    have hr := hsh.fits_hand hh
    simp [hh, Flow.Fits] at hx hr hst ⊢
    grind -ring -linarith
  case accept | reject | spawnStart | spawnFail | spawnLost | dispatch =>
    simp [*, SpawnCore.job, consumerJob] at hx hn ⊢
    grind -ring -linarith
  case discard hk =>
    rcases role_of_plain hk with ⟨r, p, a, rfl⟩ | hk <;> simpa [*] using hx
  case ackDead del _ hh hk _ _ _ _ =>
    rcases deadLetterRole_cases del.shard del.message with hd | hd
    all_goals
      simp [hh, hk, hd] at hx ⊢
      grind -ring -linarith
  case await es hh _ _ hes =>
    have hz {ρ : Role} (hρ : ∀ c, ρ ≠ .spawn c ∧ ρ ≠ .overhead c) : tally (role · = ρ) es = 0 :=
      hes.tally_eq_zero _ (fun k d hk => by simp [hk, (hρ _).1.symm])
        fun k d hk => by simp [hk, (hρ _).2.symm]
    simpa [hh, hz] using hx
  case pop hh _ _ he _ _ =>
    simp [hh, he] at hx ⊢
    omega
  case schedule hk => simpa [role_of_external hk] using hx
  all_goals
    simp [*] at hx ⊢
    try grind -ring -linarith

theorem Turn.worked_mono (hsh : Shape env f) (hs : Stages f)
    (hx : (f.job x).stage = .worked) : (f'.job x).stage = .worked := by
  have hst := h.jobStep hsh (lt_of_job (Q := (·.stage = .worked)) hx nofun)
  generalize f'.job x = j at hst
  cases hst with
  | startDefer t i _ _ hh | startRun t i _ _ _ _ hh | startLost t i hh | startFail t i _ _ hh
  | startRefuse _ _ _ _ hh => simp [hs.of_start hh] at hx
  | complete => rfl
  | _ => exact hx

theorem Turn.final_mono (hx : (f.job x).desFinalized = true) : (f'.job x).desFinalized = true := by
  have hn := default_origin (le_refl f.size)
  rcases h with h | h <;> cases h
  all_goals
    simp [Job.drawn, Job.begun] at hx hn ⊢
    grind -ring -linarith

end

theorem Issued.finalize_done {t : Time} {k : EventKind} (h : Issued env f f' t k)
    (hk : role k = .finalize x) : ∃ phase, f.hand = .done x phase := by
  cases h with
  | finalize _ _ phase hh =>
    cases hk
    exact ⟨phase, hh⟩
  | loose _ _ hl => cases k <;> cases hl <;> cases hk
  | overhead _ _ _ _ o _ _ _ _ _ _ _ _ _ _ _ hm | retryOverhead _ _ _ _ o _ _ _ _ _ _ hm =>
    simp only [OverheadData.events, List.mem_cons, Prod.mk.injEq, List.not_mem_nil, or_false] at hm
    obtain ⟨-, rfl⟩ | ⟨-, rfl⟩ := hm <;> cases hk
  | publish _ _ _ _ _ _ _ hk' => simp [hk'] at hk
  | spawnPublish _ _ _ _ _ _ _ _ hk' => simp [hk'] at hk
  | ack => simp at hk
  | _ => cases hk

section

variable (h : Turn env f f')
include h

theorem Turn.finalizing (hsh : Shape env f) (hs : Stages f) (x : ReqId)
    (hx : 0 < f'.count (role · = .finalize x)) : (f'.job x).stage = .worked := by
  obtain ⟨k, ⟨t, hp⟩, hk⟩ := (Flow.count_pos _).1 hx
  refine h.worked_mono hsh hs ?_
  rcases h.pending_cases hp with hold | hi | ⟨he, -⟩
  · exact hs.finalizing x ((Flow.count_pos _).2 ⟨k, ⟨t, hold⟩, hk⟩)
  · obtain ⟨_, hh⟩ := hi.finalize_done hk
    have hha := hs.hand
    rw [hh] at hha
    exact hha.1
  · rw [role_of_external he] at hk
    cases hk

/-- A counter either was there before, or the request has just made its calls. -/
theorem Turn.waiting_cases (hs : Stages f) {n : Nat} (hx : f'.pending x = some n) :
    0 < n ∧ ((∃ m, f.pending x = some m) ∨ ∃ phase, f.hand = .done x phase) := by
  rcases h with h | h <;> cases h
  case reportCount p _ _ _ _ _ hm =>
    by_cases hp : x = p
    · subst hp
      simp [countdown] at hx
      exact ⟨by omega, .inl ⟨_, hm⟩⟩
    · simp [hp] at hx
      exact ⟨(hs.waiting x n hx).1, .inl ⟨n, hx⟩⟩
  case overheadCount o _ _ _ _ hm =>
    by_cases hp : x = o.spawn.parent
    · subst hp
      simp [countdown] at hx
      exact ⟨by omega, .inl ⟨_, hm⟩⟩
    · simp [hp] at hx
      exact ⟨(hs.waiting x n hx).1, .inl ⟨n, hx⟩⟩
  case await r phase _ _ hh _ hm _ =>
    by_cases hp : x = r
    · subst hp
      simp at hx
      exact ⟨hx ▸ hm, .inr ⟨phase, hh⟩⟩
    · simp [hp] at hx
      exact ⟨(hs.waiting x n hx).1, .inl ⟨n, hx⟩⟩
  all_goals
    simp at hx
    exact ⟨(hs.waiting x n hx).1, .inl ⟨n, hx⟩⟩

/-- Only a request that is due becomes finalised. -/
theorem Turn.finalises (hsh : Shape env f) (hold : (f.job x).desFinalized = false) :
    (f'.job x).desFinalized = true → ∃ failed, f.hand = .due x failed := by
  refine h.forall_job hsh (Q := fun j => j.desFinalized = true → ∃ failed, f.hand = .due x failed) x
    (fun j hj hx => ?_) (fun _ j hj => ?_) nofun
  · cases hj with
    | closeDone hh | closeStale hh | closeFailed _ hh => exact ⟨_, hh⟩
    | _ => exact absurd (hold.symm.trans hx) nofun
  · cases hj <;> nofun

theorem Turn.waiting (hsh : Shape env f) (hs : Stages f) {n : Nat} (hx : f'.pending x = some n) :
    0 < n ∧ (f'.job x).stage = .worked ∧ (f'.job x).desFinalized = false := by
  have hha := hs.hand
  obtain ⟨hn, hc⟩ := h.waiting_cases hs hx
  have hold : (f.job x).stage = .worked ∧ (f.job x).desFinalized = false ∧
      ∀ failed, f.hand ≠ .due x failed := by
    rcases hc with ⟨m, hm⟩ | ⟨_, hh⟩
    · obtain ⟨-, hst, hf⟩ := hs.waiting x m hm
      refine ⟨hst, hf, fun failed hd => ?_⟩
      simp [HandStage, hd, hm] at hha
    · simp only [HandStage, hh] at hha
      exact ⟨hha.1, hha.2.2.1, by simp [hh]⟩
  refine ⟨hn, h.worked_mono hsh hs hold.1, ?_⟩
  by_contra hf
  obtain ⟨failed, hd⟩ := h.finalises hsh hold.2.1 (by simpa using hf)
  exact hold.2.2 failed hd

theorem Turn.handStage (hsh : Shape env f) (hs : Stages f) : HandStage f' f'.hand := by
  have hha := hs.hand
  rcases h with h | h <;> cases h
  case startFail r _ _ hh | startMissing r _ _ _ hh _ | startRefuse r _ _ _ _ hh =>
    have hr : r < f.jobs.length := hsh.fits_hand hh
    have hsteady := hs.steady r
    have hst := hs.of_start hh
    simp_all [HandStage, Steady, Job.drawn, Job.begun]
  case spawnFail => simp [HandStage, SpawnCore.job]
  case giveUp hh _ =>
    simp only [HandStage, hh] at hha
    exact ⟨hs.pending_eq_none (.inl (by simp [hha.1])), .inr ⟨hha.1, hha.2.1⟩,
      fun _ => hs.deadline_eq_none (by simp [hha.1])⟩
  case reportCount r p _ _ hh _ _ hn =>
    obtain ⟨-, hst, -⟩ := hs.waiting p _ hn
    simp only [Flow.take_hand, lastCall]
    split
    · have hp : (f.job r).parent = some p := by simpa [HandShape, hh] using hsh.hand
      have hlt := hsh.parent_lt r p hp
      have hne : p ≠ r := Nat.ne_of_lt hlt
      have hsi : p < f.jobs.length := lt_trans hlt (lt_of_parent hp)
      simp_all [HandStage, countdown]
    · trivial
  case overheadCount o _ hh _ _ hn =>
    obtain ⟨-, hst, -⟩ := hs.waiting _ _ hn
    have hf : f.FitsSpawn env (core o.spawn) := hsh.fits_hand hh
    have hsi : o.spawn.parent < f.jobs.length := hf.parent_lt
    simp only [Flow.take_hand, lastCall]
    split
    · simp_all [HandStage, countdown]
    · trivial
  case complete r hh _ _ | completeAck r _ _ hh _ _ _ =>
    have hr : r < f.jobs.length := hsh.fits_hand hh
    have hsteady := hs.steady r
    have hst := hs.of_complete hh
    have hpe := hs.pending_eq_none (r := r) (.inl (by simp [hst]))
    have hd := hs.deadline_eq_none (r := r) (by simp [hst])
    simp_all [HandStage, Steady]
  case finishWork hh =>
    simp only [HandStage, hh] at hha
    exact ⟨hha.2.2.2.1, .inl hha.1, fun _ => by simpa using hha.2.2.2.2⟩
  case ackDone r _ hh hn _ =>
    have hr : r < f.jobs.length := hsh.fits_hand hh
    have hst := hs.of_finalize hh
    have hpe : f.pending r = none := by
      rcases hn with hn | hn
      · exact hn
      · exact absurd (hs.waiting r 0 hn).1 (lt_irrefl 0)
    simp_all [HandStage]
  case settle r _ hh _ _ _ _ =>
    have hr : r < f.jobs.length := by simpa [HandShape, hh] using hsh.hand
    simp_all [HandStage]
  case measure =>
    simp_all [HandStage]
  case defer r _ hh _ _ =>
    have hr : r < f.jobs.length := by simpa [HandShape, hh] using hsh.hand
    simp_all [HandStage]
  case closeOk r _ _ _ _ _ _ | closeFailed r _ _ _ _ _ =>
    simp only [Flow.take_hand]
    cases (f.job r).parent <;> trivial
  case callAsync | publishAsync | overheadAsync | promise =>
    simp_all [HandStage]
  case drain | finish | schedule | scale | sweep => simp [*, HandStage]
  all_goals simp [HandStage]

/-- A closed request was closed before, or it was due and has just become finalised. -/
theorem Turn.mem_closing (hsh : Shape env f) (hx : x ∈ f'.closing) :
    x ∈ f.closing ∨ (∃ failed, f.hand = .due x failed) ∧
      (f.job x).desFinalized = false ∧ (f'.job x).desFinalized = true := by
  rcases h with h | h <;> cases h
  case closeOk r hh hf _ _ _ _ | closeAbandoned r hh hf _ | closeStale r hh hf _
    | closeFailed r _ _ hh _ hf =>
    have hr : r < f.jobs.length := by simpa [HandShape, hh] using hsh.hand
    rcases List.mem_cons.1 hx with rfl | hx
    · exact .inr ⟨⟨_, hh⟩, hf, by simp [hr]⟩
    · exact .inl hx
  case finish => exact .inl (List.mem_of_mem_tail hx)
  all_goals
    left
    simpa using hx

theorem Turn.closing_nodup (hs : Stages f) : f'.closing.Nodup := by
  have hn := hs.closing_nodup
  have hnew : ∀ r, (f.job r).desFinalized = false → (r :: f.closing).Nodup := by
    refine fun r hf => List.nodup_cons.2 ⟨fun hm => ?_, hn⟩
    have := hs.closing r hm
    rw [hf] at this
    cases this
  rcases h with h | h <;> cases h
  case closeOk r _ hf _ _ _ _ | closeAbandoned r _ hf _ | closeStale r _ hf _
    | closeFailed r _ _ _ _ hf => exact hnew r hf
  case finish => exact hn.tail
  all_goals simpa using hn

/-- Only a request whose local work has just been finished gets an acknowledgement deadline. -/
theorem Turn.defers (hold : (f.job x).queueAckDeadline = none)
    (hx : (f'.job x).queueAckDeadline ≠ none) : f.hand = .done x .opened := by
  rcases h with h | h <;> cases h
  case defer =>
    simp at hold hx
    grind -ring -linarith
  all_goals
    simp [SpawnCore.job, consumerJob, Job.drawn, Job.begun] at hold hx
    grind -ring -linarith

theorem Turn.deadline (hsh : Shape env f) (hs : Stages f) (x : ReqId)
    (hx : (f'.job x).queueAckDeadline ≠ none) : (f'.job x).stage = .worked := by
  refine h.worked_mono hsh hs ?_
  by_cases hold : (f.job x).queueAckDeadline = none
  · have hh := hs.hand
    rw [h.defers hold hx] at hh
    exact hh.1
  · exact hs.deadline x hold

theorem Turn.deferred (hs : Stages f) (x : ReqId) :
    (f'.job x).deferredQueueFinalize = (f'.job x).queueAckDeadline.isSome := by
  have hx := hs.deferred x
  rcases h with h | h <;> cases h
  all_goals
    simp at hx ⊢
    grind -ring -linarith [SpawnCore.job, consumerJob, Job.drawn, Job.begun]

end

theorem Flow.Initial.stages (h : f.Initial env) : Stages f := by
  have hj : ∀ r, f.job r = {} := fun r => default_origin (by simp [h.jobs])
  constructor
  case hand => simp [HandStage, h.hand]
  case closing => simp [h.closing]
  case closing_nodup => simp [h.closing]
  case waiting => simp [h.pending]
  all_goals simp [Flow.count, h.hand, h.events, hj, Steady]

theorem Turn.stages (h : Turn env f f') (hsh : Shape env f) (hs : Stages f) : Stages f' where
  steady := h.steady hsh hs
  queued := fun x => (h.counted hsh hs x).1
  running := fun x => (h.counted hsh hs x).2
  finalizing := h.finalizing hsh hs
  waiting := fun _ _ => h.waiting hsh hs
  deadline := h.deadline hsh hs
  deferred := h.deferred hs
  hand := h.handStage hsh hs
  closing := fun r hr => (h.mem_closing hsh hr).elim (fun hr => h.final_mono (hs.closing r hr))
    fun hr => hr.2.2
  closing_nodup := h.closing_nodup hs

theorem Reached.stages (h : Reached env f) : Stages f := by
  induction h with
  | start h => exact h.stages
  | turn hf h ih => exact h.stages hf.shape ih

end SimCore.Protocol
