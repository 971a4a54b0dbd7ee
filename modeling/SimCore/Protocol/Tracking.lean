import SimCore.Base.Counting
import SimCore.Protocol.Stages

/-!
# Requests and the run manager

Every request that is still at work is active in the run manager, or a cap refused it. A request is
handed over to the run manager at most once. A cap that refuses a request stops the run, so the only
refused requests that are ever finalised are attempts that fail before they run.

## Main definitions

* `Tracked`: the run manager knows the request as active, or a cap refused it
* `Tracking`: the invariants that tie requests to the run manager

## Main results

* `Reached.tracking`: the invariants hold in every reached protocol state
* `Reached.account`: total, active and completed requests balance up to finalised refused requests
* `Reached.explained`: why a request can be active although it is over
-/

namespace SimCore.Protocol

open Simd Resource RunManager Multiset SpawnCore

variable {env : Env} {f f' : Flow} {x : ReqId}

/-- The run manager knows the request as active, or a cap refused it. -/
def Tracked (f : Flow) (r : ReqId) : Prop :=
  r ∈ f.run.requests ∨ r ∈ f.refused

/-- The request failed before it ran and was finalised. -/
def FailedEarly (f : Flow) (r : ReqId) : Prop :=
  Obs.dependencyFailed r .finalized ∈ f.trace

/-- What the hand says about the tracking of the request it names. -/
def HandTracked (f : Flow) : Hand → Prop
  | .event _ _ => f.refused = []
  | .failed r cause => Tracked f r ∧ (r ∈ f.refused → cause = .dependency)
  | .due r _ => (f.job r).desFinalized = false → Tracked f r ∧ (r ∈ f.refused → FailedEarly f r)
  | _ => True

/-- The invariants that tie requests to the run manager. -/
structure Tracking (f : Flow) : Prop where
  nodup : f.run.requests.Nodup
  refused_nodup : f.refused.Nodup
  lt : ∀ r, Tracked f r → r < f.size
  disjoint : ∀ r ∈ f.refused, r ∉ f.run.requests
  /-- A request at work is tracked. -/
  live : ∀ r, (f.job r).stage ≠ .idle → (f.job r).desFinalized = false → Tracked f r
  hand : HandTracked f f.hand
  closing : ∀ r ∈ f.closing, Tracked f r
  /-- A refused request never starts. -/
  refused_stage : ∀ r ∈ f.refused, (f.job r).stage = .queued ∨ (f.job r).stage = .idle
  /-- A refused request is finalised only if it failed before it ran. -/
  refused_final : ∀ r ∈ f.refused, (f.job r).desFinalized = true → FailedEarly f r
  /-- A request that was handed over is finalised and no longer active. -/
  handedOver : ∀ r, .finalized r ∈ f.trace →
    (f.job r).desFinalized = true ∧ r ∉ f.closing ∧ r ∉ f.run.requests
  /-- A request is handed over at most once. -/
  once : ∀ r, f.trace.count (.finalized r) ≤ 1

/-! ### Which requests are tracked -/

theorem mem_register {r : ReqId} : Tracked (f.register r) x ↔ Tracked f x ∨ x = r := by
  unfold Tracked
  cases hr : f.run.refusal with
  | none => simp [mem_requests_addRequest, hr]; tauto
  | some => simp [mem_requests_addRequest, hr]; tauto

section

variable (h : Turn env f f')
include h

/-- A request stays tracked until it is handed over. -/
theorem Turn.tracked (hx : Tracked f x) :
    Tracked f' x ∨ ∃ c, f.closing = x :: c ∧ f'.closing = c := by
  rcases h with h | h <;> cases h
  case accept | reject | spawnStart | spawnFail | dispatch =>
    exact .inl (mem_register.2 (.inl hx))
  case finish r c _ _ _ hc =>
    by_cases heq : x = r
    · exact .inr ⟨c, heq ▸ hc, by simp [hc]⟩
    · left
      simpa [Tracked, heq] using hx
  all_goals exact .inl (by simpa [Tracked] using hx)

/-- A tracked request was tracked before, or it has just been created. -/
theorem Turn.tracked_cases (hx : Tracked f' x) : Tracked f x ∨ x = f.size ∧ f.size < f'.size := by
  rcases h with h | h <;> cases h
  case accept | reject | spawnStart | spawnFail | dispatch =>
    rcases mem_register.1 hx with hx | rfl
    · exact .inl hx
    · exact .inr ⟨rfl, by simp⟩
  case finish =>
    left
    simp [Tracked] at hx ⊢
    tauto
  all_goals exact .inl (by simpa [Tracked] using hx)

/-- An active request was active before, or it has just been created. -/
theorem Turn.active_cases (hx : x ∈ f'.run.requests) : x ∈ f.run.requests ∨ x = f.size := by
  rcases h with h | h <;> cases h
  case accept | reject | spawnStart | spawnFail | dispatch =>
    rcases (mem_requests_addRequest _ _ _).1 hx with hx | ⟨rfl, -⟩
    · exact .inl hx
    · exact .inr rfl
  case finish =>
    simp at hx
    exact .inl hx.1
  all_goals exact .inl (by simpa using hx)

/-- Only a new request is refused, and only while an event is handled. -/
theorem Turn.refused_cases : f'.refused = f.refused ∨
      f'.refused = f.size :: f.refused ∧ f'.run.requests = f.run.requests ∧ f.size < f'.size ∧
        ∃ t k, f.hand = .event t k := by
  rcases h with h | h <;> cases h
  case accept t _ _ _ hh _ _ _ | reject t _ _ _ _ hh _ _ | spawnStart t _ _ _ hh _ _
    | spawnFail t _ _ hh _ | dispatch t _ _ _ _ _ _ _ _ hh _ _ _ _ =>
    cases href : f.run.refusal with
    | none => simp [href]
    | some =>
      exact .inr ⟨by simp [href], by simp [href, addRequest], by simp, t, _, hh⟩
  all_goals exact .inl (by simp)

/-- Only the handling of an event changes a stage. -/
theorem Turn.stage_cases (hsh : Shape env f) (hx : x < f.size) :
    (f'.job x).stage = (f.job x).stage ∨ ∃ t k, f.hand = .event t k := by
  have hs := h.jobStep hsh hx
  generalize f'.job x = j at hs
  cases hs with
  | startDefer t i _ _ hh | startRun t i _ _ _ _ hh | startLost t i hh | startFail t i _ _ hh
  | startRefuse t i _ _ hh | complete t hh => exact .inr ⟨t, _, hh⟩
  | _ => exact .inl rfl

theorem Turn.idle_mono (hsh : Shape env f) (hs : Stages f) (hlt : x < f.size)
    (hx : (f.job x).stage = .idle) : (f'.job x).stage = .idle := by
  have hst := h.jobStep hsh hlt
  generalize f'.job x = j at hst
  cases hst with
  | startDefer t i _ _ hh | startRun t i _ _ _ _ hh => simp [hs.of_start hh] at hx
  | complete _ hh => simp [hs.of_complete hh] at hx
  | startLost | startFail | startRefuse => rfl
  | _ => exact hx

/-- A new request that is not idle is tracked. -/
theorem Turn.tracked_new (hlt : f.size < f'.size)
    (hx : (f'.job f.size).stage ≠ .idle) : Tracked f' f.size := by
  rcases h with h | h <;> cases h
  case accept | reject | spawnStart | spawnFail | dispatch =>
    exact mem_register.2 (.inr rfl)
  case spawnLost => simp [job] at hx
  all_goals simp at hlt

end

namespace Tracking

variable (ht : Tracking f)

include ht

section

variable (h : Turn env f f')
include h

theorem live_turn (hsh : Shape env f) (hs : Stages f) (x : ReqId)
    (hx : (f'.job x).stage ≠ .idle) (hf : (f'.job x).desFinalized = false) : Tracked f' x := by
  by_cases hlt : x < f.size
  · have hold : (f.job x).desFinalized = false := by
      by_contra hold
      simp [h.final_mono (by simpa using hold)] at hf
    have hst : (f.job x).stage ≠ .idle := fun hi => hx (h.idle_mono hsh hs hlt hi)
    rcases h.tracked (ht.live x hst hold) with htr | ⟨c, hc, -⟩
    · exact htr
    · have := hs.closing x (by simp [hc])
      rw [hold] at this
      cases this
  · by_cases hlt' : x < f'.size
    · obtain rfl : x = f.size := (h.origin (not_lt.1 hlt) hlt').1
      exact h.tracked_new hlt' hx
    · rw [default_origin (not_lt.1 hlt')] at hx
      exact absurd rfl hx

theorem closing_turn (hsh : Shape env f) (hs : Stages f) (x : ReqId)
    (hx : x ∈ f'.closing) : Tracked f' x := by
  have hold : Tracked f x := by
    rcases h.mem_closing hsh hx with hx | ⟨⟨_, hh⟩, hf, -⟩
    · exact ht.closing x hx
    · have hha := ht.hand
      rw [hh] at hha
      exact (hha hf).1
  rcases h.tracked hold with htr | ⟨c, hc, hc'⟩
  · exact htr
  · have hn := hs.closing_nodup
    rw [hc, ← hc'] at hn
    exact absurd hx (List.nodup_cons.1 hn).1

theorem lt_turn (x : ReqId) (hx : Tracked f' x) : x < f'.size := by
  rcases h.tracked_cases hx with hx | ⟨rfl, hlt⟩
  · exact lt_of_lt_of_le (ht.lt x hx) h.extends.size_le
  · exact hlt

theorem refused_stage_turn (hsh : Shape env f) (x : ReqId)
    (hx : x ∈ f'.refused) : (f'.job x).stage = .queued ∨ (f'.job x).stage = .idle := by
  have hold : x ∈ f.refused → (f'.job x).stage = .queued ∨ (f'.job x).stage = .idle := by
    intro hx
    rcases h.stage_cases hsh (ht.lt x (.inr hx)) with hs | ⟨t, k, hh⟩
    · rw [hs]
      exact ht.refused_stage x hx
    · have hha := ht.hand
      rw [hh] at hha
      rw [hha] at hx
      cases hx
  rcases h.refused_cases with heq | ⟨heq, -, hlt, -⟩
  · exact hold (heq ▸ hx)
  · rw [heq] at hx
    rcases List.mem_cons.1 hx with rfl | hx
    · rcases h with h | h <;> cases h <;> simp [job, consumerJob] at hlt ⊢
    · exact hold hx

theorem handTracked_turn (hsh : Shape env f) (hs : Stages f) : HandTracked f' f'.hand := by
  have hha := ht.hand
  have hstart : ∀ {t r i}, f.hand = .event t (.requestStart r i) →
      Tracked f r ∧ f.refused = [] := by
    intro t r i hh
    have hsteady := hs.steady r
    have hst := hs.of_start hh
    rw [hh] at hha
    simp only [Steady, hst] at hsteady
    exact ⟨ht.live r (by simp [hst]) hsteady.1, hha⟩
  have hw : ∀ {r}, (f.job r).stage = .worked → (f.job r).desFinalized = false →
      Tracked f r ∧ r ∉ f.refused := by
    intro r hst hf
    refine ⟨ht.live r (by simp [hst]) hf, fun href => ?_⟩
    have := ht.refused_stage r href
    simp [hst] at this
  rcases h with h | h <;> cases h
  case pop hr _ _ _ => simpa [HandTracked] using hr
  case startFail hh | startMissing hh _ | startRefuse hh =>
    obtain ⟨htr, href⟩ := hstart hh
    exact ⟨by simpa [Tracked] using htr, by simp [href]⟩
  case spawnFail => exact ⟨mem_register.2 (.inr rfl), fun _ => rfl⟩
  case giveUp hh _ =>
    rw [hh] at hha
    refine fun _ => ⟨by simpa [Tracked] using hha.1, fun href => ?_⟩
    rw [hha.2 (by simpa using href)]
    simp [FailedEarly, Cause.obs]
  case reportCount hn | overheadCount hn =>
    obtain ⟨-, hst, hf⟩ := hs.waiting _ _ hn
    obtain ⟨htr, href⟩ := hw hst hf
    simp only [Flow.take_hand, lastCall]
    split
    · exact fun _ => ⟨by simpa [Tracked] using htr, fun h => absurd (by simpa using h) href⟩
    · trivial
  case finishWork hh =>
    have hd := hs.hand
    rw [hh] at hd
    obtain ⟨htr, href⟩ := hw hd.1 hd.2.2.1
    exact fun _ => ⟨htr, fun h => absurd h href⟩
  case ackDone r _ hh _ _ =>
    have hr : r < f.jobs.length := hsh.fits_hand hh
    intro hf
    have hf : (f.job r).desFinalized = false := by simpa [hr] using hf
    obtain ⟨htr, href⟩ := hw (hs.of_finalize hh) hf
    exact ⟨by simpa [Tracked] using htr, fun h => absurd (by simpa using h) href⟩
  case settle r _ hh _ _ _ _ =>
    have hr : r < f.jobs.length := by simpa [HandShape, hh] using hsh.hand
    rw [hh] at hha
    simp only [Flow.setJob_hand, Flow.sample_hand, hh]
    intro hf
    have hf : (f.job r).desFinalized = false := by simpa [hr] using hf
    simpa [Tracked, FailedEarly] using hha hf
  case closeOk r _ _ _ _ _ _ | closeFailed r _ _ _ _ _ =>
    simp only [Flow.take_hand]
    cases (f.job r).parent <;> trivial
  case drain hh _ =>
    rw [hh] at hha
    simpa [HandTracked, hh] using hha
  case callAsync | publishAsync | overheadAsync | promise | finish | schedule | scale | sweep =>
    simp [*, HandTracked]
  all_goals simp [HandTracked]

theorem requests_nodup_turn : f'.run.requests.Nodup := by
  have hn := ht.nodup
  rcases h with h | h <;> cases h
  case accept | reject | spawnStart | spawnFail | dispatch =>
    exact nodup_requests_addRequest _ _ hn
  case finish => simpa using hn.filter _
  all_goals simpa using hn

end

theorem not_tracked_size : ¬ Tracked f f.size :=
  fun h => lt_irrefl _ (ht.lt _ h)

theorem refused_nodup_turn (h : Turn env f f') : f'.refused.Nodup := by
  rcases h.refused_cases with heq | ⟨heq, -, -, -⟩
  · exact heq ▸ ht.refused_nodup
  · rw [heq]
    exact List.nodup_cons.2 ⟨fun hm => ht.not_tracked_size (.inr hm), ht.refused_nodup⟩

theorem disjoint_turn (h : Turn env f f') (x : ReqId) (hx : x ∈ f'.refused) :
    x ∉ f'.run.requests := by
  rcases h.refused_cases with heq | ⟨heq, hr, -, -⟩
  · rw [heq] at hx
    have hold := ht.disjoint x hx
    have hne : x ≠ f.size := fun hxs => ht.not_tracked_size (.inr (hxs ▸ hx))
    exact fun hm => (h.active_cases hm).elim hold hne
  · rw [hr]
    rw [heq] at hx
    rcases List.mem_cons.1 hx with rfl | hx
    · exact fun hm => ht.not_tracked_size (.inl hm)
    · exact ht.disjoint x hx

theorem refused_final_turn (h : Turn env f f') (hsh : Shape env f) (x : ReqId)
    (hx : x ∈ f'.refused) (hf : (f'.job x).desFinalized = true) : FailedEarly f' x := by
  have hold : x ∈ f.refused → FailedEarly f' x := by
    intro hx
    refine mem_of_le h.trace_le ?_
    by_cases hf' : (f.job x).desFinalized = true
    · exact ht.refused_final x hx hf'
    · have hf' : (f.job x).desFinalized = false := by simpa using hf'
      have hha := ht.hand
      obtain ⟨_, hh⟩ := h.finalises hsh hf' hf
      rw [hh] at hha
      exact (hha hf').2 hx
  rcases h.refused_cases with heq | ⟨heq, -, hlt, -⟩
  · exact hold (heq ▸ hx)
  · rw [heq] at hx
    rcases List.mem_cons.1 hx with rfl | hx
    · rcases h with h | h <;> cases h <;> simp [job, consumerJob] at hlt hf
    · exact hold hx

end Tracking

/-- A hand-over is the only action that notes one. -/
theorem Turn.handOver_cases (h : Turn env f f') :
    (∀ x, f'.trace.count (.finalized x) = f.trace.count (.finalized x)) ∨
      ∃ r c a b, f.hand = .free ∧ f.closing = r :: c ∧ f' = f.handOver r a b := by
  rcases h with h | h <;> cases h
  case finish r c a b hh hc => exact .inr ⟨r, c, a, b, hh, hc, rfl⟩
  all_goals left; intro x
  case retry cause _ _ _ _ _ _ _ _ | giveUp cause _ _ =>
    cases cause <;> simp [Cause.obs] <;> split <;> simp
  case closeOk | ackIgnore | ackRequeue | ackDead =>
    simp
    split_ifs <;> simp
  case scale => simp
  all_goals simp [Flow.attempt]

namespace Tracking

variable (ht : Tracking f)

include ht

theorem handedOver_turn (h : Turn env f f') (hsh : Shape env f) (hs : Stages f) (x : ReqId)
    (hx : .finalized x ∈ f'.trace) :
    (f'.job x).desFinalized = true ∧ x ∉ f'.closing ∧ x ∉ f'.run.requests := by
  have hold : .finalized x ∈ f.trace →
      (f'.job x).desFinalized = true ∧ x ∉ f'.closing ∧ x ∉ f'.run.requests := by
    intro hx
    obtain ⟨hf, hcl, hr⟩ := ht.handedOver x hx
    refine ⟨h.final_mono hf, fun hm => ?_, fun hm => ?_⟩
    · rcases h.mem_closing hsh hm with hm | ⟨-, hf', -⟩
      · exact hcl hm
      · rw [hf] at hf'
        cases hf'
    · rcases h.active_cases hm with hm | rfl
      · exact hr hm
      · rw [default_origin (le_refl f.size)] at hf
        cases hf
  rcases h.handOver_cases with heq | ⟨r, c, a, b, _, hc, rfl⟩
  · refine hold ?_
    rwa [← count_pos, heq, count_pos] at hx
  · by_cases hxr : x = r
    · subst hxr
      have hn := hs.closing_nodup
      rw [hc] at hn
      exact ⟨by simpa using hs.closing x (by simp [hc]),
        by simpa [hc] using (List.nodup_cons.1 hn).1, by simp⟩
    · exact hold (by simpa [hxr] using hx)

theorem once_turn (h : Turn env f f') (x : ReqId) : f'.trace.count (.finalized x) ≤ 1 := by
  rcases h.handOver_cases with heq | ⟨r, c, a, b, _, hc, rfl⟩
  · exact heq x ▸ ht.once x
  · by_cases hxr : x = r
    · subst hxr
      have hz : f.trace.count (.finalized x) = 0 := by
        rw [count_eq_zero]
        exact fun hm => (ht.handedOver x hm).2.1 (by simp [hc])
      simp [hz]
    · simpa [hxr] using ht.once x

end Tracking

/-- The refused requests that were finalised nevertheless. -/
def finalisedRefused (f : Flow) : List ReqId :=
  f.refused.filter fun r => Obs.finalized r ∈ f.trace

/-- Total requests and finalised refused requests are active or completed. -/
def Balanced (f : Flow) : Prop :=
  f.run.totalRequests + (finalisedRefused f).length = f.run.requests.length + f.run.completedCount

/-- Without a hand-over, total and active requests grow together and the rest stays. -/
theorem Tracking.counters_turn (ht : Tracking f) (h : Turn env f f')
    (hno : ∀ x, f'.trace.count (.finalized x) = f.trace.count (.finalized x)) :
    f'.run.totalRequests + f.run.requests.length = f.run.totalRequests + f'.run.requests.length ∧
      f'.run.completedCount = f.run.completedCount ∧ f'.run.failedCount = f.run.failedCount := by
  have hs : f.size ∉ f.run.requests := fun hm => ht.not_tracked_size (.inl hm)
  rcases h with h | h <;> cases h
  case accept | reject | spawnStart | spawnFail | dispatch =>
    exact ⟨addRequest_counts _ _ hs, by simp, by simp⟩
  case finish r _ _ _ _ _ => simpa using hno r
  all_goals simp

theorem Tracking.balanced_turn (ht : Tracking f) (hb : Balanced f) (h : Turn env f f') :
    Balanced f' := by
  unfold Balanced at hb ⊢
  rcases h.handOver_cases with heq | ⟨r, c, a, b, _, hc, rfl⟩
  · obtain ⟨_, _, -⟩ := ht.counters_turn h heq
    have hm : ∀ x, .finalized x ∈ f'.trace ↔ .finalized x ∈ f.trace := fun x => by
      rw [← count_pos, heq, count_pos]
    have hf : finalisedRefused f' = finalisedRefused f := by
      unfold finalisedRefused
      simp only [hm]
      rcases h.refused_cases with href | ⟨href, -, -, -⟩
      · rw [href]
      · have hs : .finalized f.size ∉ f.trace := fun hf => by
          have := (ht.handedOver _ hf).1
          rw [default_origin (le_refl f.size)] at this
          cases this
        rw [href, List.filter_cons_of_neg (by simpa using hs)]
    rw [hf]
    omega
  · have hn : .finalized r ∉ f.trace := fun hm => (ht.handedOver r hm).2.1 (by simp [hc])
    have hco : (f.handOver r a b).run.completedCount = f.run.completedCount + 1 := by simp
    have hto : (f.handOver r a b).run.totalRequests = f.run.totalRequests := by simp
    rcases ht.closing r (by simp [hc]) with ha | hr
    · have ho : r ∉ f.refused := fun href => ht.disjoint r href ha
      have hf : finalisedRefused (f.handOver r a b) = finalisedRefused f := by
        refine List.filter_congr fun x hx => ?_
        have hne : x ≠ r := fun heq => ho (heq ▸ hx)
        simp [hne]
      have hl := length_filter_ne_add_one ht.nodup ha
      rw [hf, hco, hto]
      simp only [Flow.handOver_run, finalizeRequest_requests]
      omega
    · have ho : r ∉ f.run.requests := ht.disjoint r hr
      have hf : (finalisedRefused (f.handOver r a b)).length = (finalisedRefused f).length + 1 :=
        length_filter_or_eq ht.refused_nodup hr (by simpa using hn) (by simp)
          fun x hx => by simp [hx]
      have hreq : f.run.requests.filter (· ≠ r) = f.run.requests :=
        List.filter_eq_self.2 fun x hx => by simpa using fun heq : x = r => ho (heq ▸ hx)
      rw [hf, hco, hto]
      simp only [Flow.handOver_run, finalizeRequest_requests, hreq]
      omega

theorem Flow.Initial.tracking (h : f.Initial env) : Tracking f := by
  constructor
  case hand => simp [HandTracked, h.hand]
  case live => simp [h.jobs, default, instInhabitedJob.default]
  all_goals simp [h.requests, h.refused, h.closing, h.trace, Tracked]

theorem Turn.tracking (h : Turn env f f') (hsh : Shape env f) (hs : Stages f) (ht : Tracking f) :
    Tracking f' where
  nodup := ht.requests_nodup_turn h
  refused_nodup := ht.refused_nodup_turn h
  lt := ht.lt_turn h
  disjoint := ht.disjoint_turn h
  live := ht.live_turn h hsh hs
  hand := ht.handTracked_turn h hsh hs
  closing := ht.closing_turn h hsh hs
  refused_stage := ht.refused_stage_turn h hsh
  refused_final := ht.refused_final_turn h hsh
  handedOver := ht.handedOver_turn h hsh hs
  once := ht.once_turn h

theorem Reached.tracking (h : Reached env f) : Tracking f := by
  induction h with
  | start h => exact h.tracking
  | turn hf h ih => exact h.tracking hf.shape hf.stages ih

/-- Total requests and finalised refused requests are active or completed. -/
theorem Reached.balanced (h : Reached env f) : Balanced f := by
  induction h with
  | start h => simp [Balanced, finalisedRefused, h.refused, h.totalRequests, h.requests,
      h.completedCount]
  | turn hf h ih => exact hf.tracking.balanced_turn ih h

theorem Reached.failed_le_completed (h : Reached env f) :
    f.run.failedCount ≤ f.run.completedCount := by
  induction h with
  | start h => simp [h.failedCount]
  | @turn _ _ hf h =>
    rcases h.handOver_cases with heq | ⟨r, c, a, b, _, _, rfl⟩
    · obtain ⟨-, _, _⟩ := hf.tracking.counters_turn h heq
      omega
    · cases a <;> simp <;> omega

/-! ### Why a request that is over can be active -/

/-- The ways in which a request can fail before its local work without being handed over. -/
def Stranded (f : Flow) (r : ReqId) : Prop :=
  .rejected r ∈ f.trace ∨ .startFailed r .retried ∈ f.trace ∨ .startFailed r .dropped ∈ f.trace ∨
    .dependencyFailed r .retried ∈ f.trace

/-- The hand holds the failed request. -/
def InHand (f : Flow) (r : ReqId) : Prop :=
  (∃ cause, f.hand = .failed r cause) ∨ ∃ failed, f.hand = .due r failed

/-- Every active request that is over has a reason to be active. -/
structure Explained (f : Flow) : Prop where
  stranded : ∀ r ∈ f.run.requests, (f.job r).stage = .idle → (f.job r).status = .failed →
    (f.job r).desFinalized = false → InHand f r ∨ Stranded f r
  late : ∀ r, (f.job r).stage = .worked → (f.job r).brokerAckTimedOut = true →
    .completedAfterAckTimeout r ∈ f.trace ∨ .ackTimeoutAfterWork r ∈ f.trace
  final : ∀ r ∈ f.run.requests, (f.job r).desFinalized = true →
    r ∈ f.closing ∨ .completedAfterAsyncTimeout r ∈ f.trace

theorem Stranded.turn (h : Turn env f f') {r : ReqId} (hr : Stranded f r) : Stranded f' r := by
  have hle := fun o => mem_of_le (a := o) h.trace_le
  exact hr.imp (hle _) (.imp (hle _) (.imp (hle _) (hle _)))

theorem Explained.late_turn (he : Explained f) (h : Turn env f f') (x : ReqId)
    (hx : (f'.job x).stage = .worked) (hto : (f'.job x).brokerAckTimedOut = true) :
    .completedAfterAckTimeout x ∈ f'.trace ∨ .ackTimeoutAfterWork x ∈ f'.trace := by
  have hold : (f.job x).stage = .worked → (f.job x).brokerAckTimedOut = true →
      .completedAfterAckTimeout x ∈ f'.trace ∨ .ackTimeoutAfterWork x ∈ f'.trace := fun h₁ h₂ =>
    (he.late x h₁ h₂).imp (mem_of_le h.trace_le) (mem_of_le h.trace_le)
  rcases h with h | h <;> cases h
  all_goals
    simp [job, consumerJob, Job.drawn, Job.begun] at hx hto hold ⊢
    grind -ring -linarith

theorem Explained.final_turn (he : Explained f) (h : Turn env f f') (x : ReqId)
    (hx : x ∈ f'.run.requests) (hf : (f'.job x).desFinalized = true) :
    x ∈ f'.closing ∨ .completedAfterAsyncTimeout x ∈ f'.trace := by
  have ha : (f.job x).desFinalized = true → x ∈ f.run.requests := by
    intro hold
    rcases h.active_cases hx with hx | rfl
    · exact hx
    · rw [default_origin (le_refl f.size)] at hold
      cases hold
  have hold : (f.job x).desFinalized = true →
      x ∈ f.closing ∨ .completedAfterAsyncTimeout x ∈ f'.trace := fun hold =>
    (he.final x (ha hold) hold).imp_right (mem_of_le h.trace_le)
  rcases h with h | h <;> cases h
  case finish hc =>
    rcases hold (by simpa using hf) with hm | hm
    · simp at hx
      rw [hc] at hm
      exact .inl (by simpa [hc, hx.2] using hm)
    · exact .inr hm
  all_goals
    simp [job, consumerJob, Job.drawn, Job.begun] at hf hold ⊢
    grind -ring -linarith

/-- A failed request in hand stays there, is finalised, or is left with a reason. -/
theorem InHand.turn (h : Turn env f f') (hs : Stages f) (hx : x ∈ f.run.requests)
    (hi : (f.job x).stage = .idle) (hold : (f.job x).desFinalized = false) (hlt : x < f.size)
    (hin : InHand f x) : InHand f' x ∨ Stranded f' x ∨ (f'.job x).desFinalized = true := by
  rcases hin with ⟨cause, hin⟩ | ⟨failed, hin⟩
  · rcases h with h | h <;> cases h
    case retry hh _ _ _ _ _ =>
      obtain ⟨rfl, rfl⟩ := by simpa [hin] using hh
      right; left
      cases cause <;> simp [Stranded, Cause.obs]
    case giveUp hh _ =>
      obtain ⟨rfl, rfl⟩ := by simpa [hin] using hh
      exact .inl (.inr ⟨true, rfl⟩)
    case drop hh _ | dropReport hh _ =>
      obtain ⟨rfl, rfl⟩ := by simpa [hin] using hh
      right; left
      simp [Stranded]
    all_goals simp_all
  · rcases h with h | h <;> cases h
    case settle => exact .inl (.inr ⟨failed, by simpa using hin⟩)
    case dueFinal hh hf =>
      obtain ⟨rfl, rfl⟩ := by simpa [hin] using hh
      rw [hold] at hf
      cases hf
    case hold deadline hh _ _ =>
      obtain ⟨rfl, rfl⟩ := by simpa [hin] using hh
      have hw := hs.deadline x fun hn => by simp_all
      rw [hi] at hw
      cases hw
    case unknown hh hk =>
      obtain ⟨rfl, rfl⟩ := by simpa [hin] using hh
      rw [knows_of_mem _ _ hx] at hk
      cases hk
    case closeOk hh _ _ _ _ _ | closeAbandoned hh _ _ | closeStale hh _ _ | closeTimedOut hh _ _ _ _
      | closeFailed hh _ _ =>
      obtain ⟨rfl, rfl⟩ := by simpa [hin] using hh
      right; right
      simp at hlt
      simp [hlt]
    all_goals simp_all

/-- A request that has just failed is in hand, or it has a reason to be left. -/
theorem Turn.fails (h : Turn env f f') (hs : Stages f) (ht : Tracking f) (hx : x ∈ f'.run.requests)
    (hi : (f'.job x).stage = .idle) (hst : (f'.job x).status = .failed)
    (hf : (f'.job x).desFinalized = false)
    (hold : x ∈ f.run.requests → (f.job x).stage = .idle → (f.job x).status ≠ .failed) :
    InHand f' x ∨ Stranded f' x := by
  have hn : f.size ∉ f.run.requests := fun hm => ht.not_tracked_size (.inl hm)
  have ha := h.active_cases hx
  have hsteady := hs.steady x
  rcases h with h | h <;> cases h
  case startFail r _ _ _ | startMissing r _ _ _ _ _ | startRefuse r _ _ _ _ _ =>
    by_cases hxr : x = r
    · subst hxr
      exact .inl (.inl ⟨_, rfl⟩)
    · simp_all
  case spawnFail =>
    rcases ha with ha | rfl
    · have hne : x ≠ f.size := fun heq => hn (heq ▸ ha)
      simp_all
    · exact .inl (.inl ⟨_, rfl⟩)
  case reject =>
    rcases ha with ha | rfl
    · have hne : x ≠ f.size := fun heq => hn (heq ▸ ha)
      simp_all
    · right
      simp [Stranded]
  case startLost r _ hh =>
    have hpe := hs.steady r
    simp only [Steady, hs.of_start hh] at hpe
    by_cases hxr : x = r
    · subst hxr
      simp at hst
      grind -ring -linarith
    · simp_all
  case ackRequeue r _ _ _ _ _ hp _ _ | ackDead r _ _ _ _ _ hp _ _ =>
    by_cases hxr : x = r
    · subst hxr
      have hi : (f.job x).stage = .idle := by
        simp at hi ⊢
        grind -ring -linarith
      simp [Steady, hi, hp] at hsteady
    · simp_all
  all_goals
    simp [job, consumerJob] at hi hst hold hx ha hf
    grind -ring -linarith

theorem Explained.stranded_turn (he : Explained f) (h : Turn env f f')
    (hs : Stages f) (ht : Tracking f) (x : ReqId) (hx : x ∈ f'.run.requests)
    (hi : (f'.job x).stage = .idle) (hst : (f'.job x).status = .failed)
    (hf : (f'.job x).desFinalized = false) : InHand f' x ∨ Stranded f' x := by
  by_cases hold : x ∈ f.run.requests ∧ (f.job x).stage = .idle ∧ (f.job x).status = .failed
  · obtain ⟨hx', hi', hst'⟩ := hold
    have hf' : (f.job x).desFinalized = false := by
      by_contra hf'
      simp [h.final_mono (by simpa using hf')] at hf
    rcases he.stranded x hx' hi' hst' hf' with hin | hin
    · rcases hin.turn h hs hx' hi' hf' (ht.lt x (.inl hx')) with hin | hin | hin
      · exact .inl hin
      · exact .inr hin
      · rw [hin] at hf
        cases hf
    · exact .inr (hin.turn h)
  · exact h.fails hs ht hx hi hst hf fun h₁ h₂ h₃ => hold ⟨h₁, h₂, h₃⟩

theorem Reached.explained (h : Reached env f) : Explained f := by
  induction h with
  | start h =>
    constructor <;> simp [h.jobs, h.requests, default, instInhabitedJob.default]
  | turn hf h ih =>
    exact ⟨ih.stranded_turn h hf.stages hf.tracking, ih.late_turn h, ih.final_turn h⟩

end SimCore.Protocol
