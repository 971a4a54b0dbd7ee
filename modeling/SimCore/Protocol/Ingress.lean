import SimCore.Base.Counting
import SimCore.Protocol.Stages

/-!
# The ingress accounting

A logical failure is recorded for an ingress request when it is rejected, when it fails at its start
for lack of resources, or when it is finalised as failed. Each of these happens to a request for
which none has been recorded, and none of them can be followed by a success.

## Main definitions

* `failuresOf`: the logical failures recorded for a request
* `Doomed`: a request whose failure is final
* `Ingress`: the invariants of the accounting

## Main results

* `Reached.ingress`: the invariants hold in every reached protocol state
* `Ingress.failures_le_arrivals`: there are at most as many failures as ingress requests
-/

namespace SimCore.Protocol

open Simd Resource Multiset

variable {env : Env} {f f' : Flow} {r : ReqId}

/-- A logical failure of a request. -/
def FailureOf (r : ReqId) (x : Sample) : Prop :=
  x.metric = .ingressLogicalFailure ∧ x.subject = some r

instance (r : ReqId) : DecidablePred (FailureOf r) :=
  fun _ => inferInstanceAs (Decidable (_ ∧ _))

/-- The logical failures recorded for a request. -/
def failuresOf (f : Flow) (r : ReqId) : Nat :=
  f.samples.countP (FailureOf r)

/-- The ingress requests counted so far. -/
def Flow.arrivals (f : Flow) : Nat :=
  f.samples.countP fun x => x.metric = .requestCount

/-- The number of ingress requests. -/
def Flow.roots (f : Flow) : Nat :=
  f.jobs.countP fun j => j.parent = none

/-- The request has failed, and nothing can change that: it is finalised, or it failed at its start
and no action will finalise it. -/
structure Doomed (f : Flow) (r : ReqId) : Prop where
  status : (f.job r).status = .failed
  stuck : (f.job r).desFinalized = true ∨ (f.job r).stage = .idle ∧
    (∀ failed, f.hand ≠ .due r failed) ∧ ∀ cause, f.hand = .failed r cause → cause = .resources

/-- The invariants of the ingress accounting. -/
structure Ingress (f : Flow) : Prop where
  /-- A logical failure counts one, for an ingress request. -/
  failure : ∀ x ∈ f.samples, x.metric = .ingressLogicalFailure →
    x.value = 1 ∧ ∃ r < f.size, x.subject = some r ∧ (f.job r).parent = none
  doomed : ∀ r, 0 < failuresOf f r → Doomed f r
  once : ∀ r, failuresOf f r ≤ 1
  arrivals : f.arrivals = f.roots

/-- How an action changes the logical failures of a request. -/
theorem Turn.failures_cases (h : Turn env f f') (hsh : Shape env f) (hs : Stages f) (x : ReqId) :
    failuresOf f' x = failuresOf f x ∨
      failuresOf f' x = failuresOf f x + 1 ∧ Doomed f' x ∧ ¬ Doomed f x := by
  rcases h with h | h <;> cases h
  case accept hm hl _ =>
    left
    simp [failuresOf, hl, FailureOf, hm]
  case reject hm hl =>
    by_cases hx : x = f.size
    · right
      subst hx
      refine ⟨?_, ⟨?_, .inr ?_⟩, fun hd => ?_⟩
      · simp [failuresOf, hl, countP_cons, FailureOf, hm]
      · simp
      · simp
      · have hst := hd.status
        simp [jobAt_of_length_le] at hst
        exact absurd hst (by decide)
    · left
      simp [failuresOf, hl, FailureOf, hm, Ne.symm hx]
  case startMissing r _ _ _ hh _ | startRefuse r _ _ _ _ hh =>
    have hr : r < f.jobs.length := hsh.fits_hand hh
    have hstage := hs.of_start hh
    by_cases hp : (jobAt f.jobs r).parent = none
    · by_cases hx : r = x
      · subst hx
        right
        refine ⟨?_, ⟨?_, .inr ?_⟩, fun hd => ?_⟩
        · simp [failuresOf, countP_cons, FailureOf, hr, hp]
        · simp [hr]
        · simp [hr]
        · have hst := hd.status
          have hsteady := hs.steady r
          simp_all [Steady]
      · left
        simp [failuresOf, FailureOf, hr, hp, hx]
    · left
      simp [failuresOf, hr, hp]
  case closeFailed r _ _ hh _ _ =>
    have hr : r < f.jobs.length := by simpa [HandShape, hh] using hsh.hand
    by_cases hp : (jobAt f.jobs r).parent = none
    · by_cases hx : r = x
      · subst hx
        right
        refine ⟨?_, ⟨?_, .inl ?_⟩, fun hd => ?_⟩
        · simp [failuresOf, countP_cons, FailureOf, hr, hp]
        · simp [hr]
        · simp [hr]
        · have hst := hd.stuck
          simp_all
      · left
        simp [failuresOf, FailureOf, hr, hp, hx]
    · left
      simp [failuresOf, hr, hp]
  case settle hy | measure hy | ackDone hy =>
    left
    simp [failuresOf, observedSample, FailureOf, hy.1]
  all_goals
    left
    simp [failuresOf]

/-- What can change the stage, the status or the finality of a request. -/
theorem Turn.outcome_cases (h : Turn env f f') {x : ReqId} (hx : x < f.size) :
    ((f'.job x).stage = (f.job x).stage ∧ (f'.job x).status = (f.job x).status ∧
      (f'.job x).desFinalized = (f.job x).desFinalized) ∨
    (∃ t i, f.hand = .event t (.requestStart x i)) ∨
    (∃ t, f.hand = .event t (.requestComplete x)) ∨
    (∃ failed, f.hand = .due x failed ∧ (f.job x).desFinalized = false) ∨
    (f.job x).status = .processing := by
  rcases h with h | h <;> cases h
  case closeOk r hh hf _ _ _ _ | closeAbandoned r hh hf _ | closeStale r hh hf _
    | closeTimedOut r hh hf _ _ _ | closeFailed r _ _ hh _ hf =>
    by_cases hr : x = r
    · subst hr
      exact .inr (.inr (.inr (.inl ⟨_, hh, hf⟩)))
    · left
      simp [hr]
  all_goals simp at hx ⊢
  all_goals grind -ring -linarith

theorem Doomed.lt_size {x : ReqId} (hx : Doomed f x) : x < f.size := by
  by_contra hle
  have hst := hx.status
  rw [default_origin (Nat.le_of_not_lt hle)] at hst
  cases hst

theorem Doomed.hand_ne (hx : Doomed f r) (hs : Stages f) (t : Time) :
    (∀ i, f.hand ≠ .event t (.requestStart r i)) ∧ f.hand ≠ .event t (.requestComplete r) := by
  have hsteady := hs.steady r
  have hstuck := hx.stuck
  refine ⟨fun i hh => ?_, fun hh => ?_⟩
  · have hstage := hs.of_start hh
    simp_all [Steady]
  · have hstage := hs.of_complete hh
    simp_all [Steady]

theorem Turn.doomed (h : Turn env f f') (hs : Stages f) (hx : Doomed f r) : Doomed f' r := by
  obtain ⟨hstage, hst, hfin⟩ | ⟨t, i, hh⟩ | ⟨t, hh⟩ | ⟨failed, hh, _⟩ | _ :=
    h.outcome_cases hx.lt_size
  · refine ⟨hst.trans hx.status, ?_⟩
    rw [hstage, hfin]
    refine hx.stuck.imp_right fun ⟨hi, hd, hf⟩ => ⟨hi, fun failed hh => ?_, fun cause hh => ?_⟩
    · have hha := hs.hand
      obtain hh | ⟨-, cause, hc, hh⟩ | ⟨-, hn⟩ | hh | ⟨-, t, hh⟩ := h.due_cases hh
      · exact hd failed hh
      · exact hc (hf cause hh)
      · have := hs.waiting r 1 hn
        simp_all
      · simp_all [HandStage]
      · have := hs.of_finalize hh
        simp_all
    · obtain hh | ⟨t, i, hh⟩ | ⟨rfl, -⟩ := h.failed_cases hh
      · exact hf cause hh
      · exact absurd hh ((hx.hand_ne hs t).1 i)
      · exact absurd hx.lt_size (Nat.lt_irrefl _)
  · exact absurd hh ((hx.hand_ne hs t).1 i)
  · exact absurd hh (hx.hand_ne hs t).2
  · have := hx.stuck
    simp_all
  · have := hx.status
    simp_all

/-- A new sample belongs to a new ingress request, or is a failure of an ingress request. -/
theorem Turn.failure_sample (h : Turn env f f') (hsh : Shape env f) {x : Sample}
    (hx : x ∈ f'.samples) (hm : x.metric = .ingressLogicalFailure) :
    x ∈ f.samples ∨ x.value = 1 ∧ ∃ r < f'.size, x.subject = some r ∧ (f'.job r).parent = none := by
  rcases h with h | h <;> cases h
  case reject hy hl =>
    simp [hl] at hx
    obtain rfl | rfl | hx := hx
    · right
      simp
    · simp [hy] at hm
    · exact .inl hx
  case accept hy hl _ =>
    simp [hl] at hx
    obtain rfl | hx := hx
    · simp [hy] at hm
    · exact .inl hx
  case startMissing r _ _ _ hh _ | startRefuse r _ _ _ _ hh =>
    have hr : r < f.jobs.length := hsh.fits_hand hh
    simp [hr] at hx
    split_ifs at hx with hp
    · obtain rfl | hx := mem_cons.1 hx
      · exact .inr (by simp [hr, hp])
      · exact .inl hx
    · exact .inl hx
  case closeFailed r _ _ hh _ _ =>
    have hr : r < f.jobs.length := by simpa [HandShape, hh] using hsh.hand
    simp [hr] at hx
    split_ifs at hx with hp
    · obtain rfl | hx := mem_cons.1 hx
      · exact .inr (by simp [hr, hp])
      · exact .inl hx
    · exact .inl hx
  case settle hy | measure hy | ackDone hy =>
    simp [observedSample, hy.1] at hx
    obtain rfl | hx := hx
    · simp [hy.1] at hm
    · exact .inl hx
  all_goals
    left
    simpa using hx

/-- Ingress requests and their count samples come together. -/
theorem Turn.arrivals (h : Turn env f f') (hi : f.arrivals = f.roots) : f'.arrivals = f'.roots := by
  unfold Flow.arrivals Flow.roots at *
  rcases h with h | h <;> cases h
  case accept hm hl _ => simp [hl, hm, hi]
  case reject hm hl => simp [hl, hm, hi]
  case startMissing | startRefuse | closeFailed =>
    simp [apply_ite, countP_modify_of_forall, Job.drawn, Job.begun, hi]
  case settle hy | measure hy | ackDone hy =>
    simp [countP_modify_of_forall, observedSample, hy.1, hi]
  all_goals
    simp [countP_modify_of_forall, SpawnCore.job, consumerJob, Job.drawn, Job.begun, hi]

theorem Flow.Initial.ingress (h : f.Initial env) : Ingress f := by
  constructor <;> simp [failuresOf, Flow.arrivals, Flow.roots, h.samples, h.jobs]

theorem Turn.ingress (h : Turn env f f') (hsh : Shape env f) (hs : Stages f) (hi : Ingress f) :
    Ingress f' where
  failure := by
    intro x hx hm
    obtain hx | hn := h.failure_sample hsh hx hm
    · obtain ⟨hv, r, hr, hsub, hp⟩ := hi.failure x hx hm
      exact ⟨hv, r, hr.trans_le h.extends.size_le, hsub, (h.extends.origin r hr).parent.trans hp⟩
    · exact hn
  doomed := by
    intro r hr
    obtain heq | ⟨-, hd, -⟩ := h.failures_cases hsh hs r
    · exact h.doomed hs (hi.doomed r (heq ▸ hr))
    · exact hd
  once := by
    intro r
    obtain heq | ⟨heq, -, hnd⟩ := h.failures_cases hsh hs r
    · exact heq ▸ hi.once r
    · have hz : failuresOf f r = 0 :=
        Nat.eq_zero_of_not_pos fun hpos => hnd (hi.doomed r hpos)
      omega
  arrivals := h.arrivals hi.arrivals

theorem Reached.ingress (h : Reached env f) : Ingress f := by
  induction h with
  | start h => exact h.ingress
  | turn hf h ih => exact h.ingress hf.shape hf.stages ih

theorem Turn.completed_mono (h : Turn env f f') (hs : Stages f) {x : ReqId}
    (hx : (f.job x).status = .completed) : (f'.job x).status = .completed := by
  have hst := hs.steady x
  have hlt : x < f.size := by
    by_contra hlt
    simp [default_origin (not_lt.1 hlt)] at hx
  obtain ⟨-, hstatus, -⟩ | ⟨t, i, hh⟩ | ⟨t, hh⟩ | ⟨_, hh, _⟩ | hp := h.outcome_cases hlt
  · rw [hstatus, hx]
  · simp [Steady, hs.of_start hh, hx] at hst
  · simp [Steady, hs.of_complete hh, hx] at hst
  · grind -ring -linarith [Steady]
  · rw [hx] at hp
    cases hp

theorem Flow.roots_eq (f : Flow) :
    f.roots = ((List.range f.size).filter fun r => (f.job r).parent = none).length := by
  have hj : f.jobs = (List.range f.size).map f.job := by
    refine List.ext_getElem (by simp) fun r hr _ => ?_
    simp [jobAt, hr]
  calc f.roots = ((List.range f.size).map f.job).countP fun j => j.parent = none := by
        rw [← hj, Flow.roots]
    _ = _ := by rw [List.countP_map, List.countP_eq_length_filter, Function.comp_def]

theorem Ingress.failures_le_arrivals (hi : Ingress f) :
    f.samples.countP (fun x => x.metric = .ingressLogicalFailure) ≤ f.arrivals := by
  rw [hi.arrivals, Flow.roots_eq, countP_eq_card_filter]
  -- The failures have different subjects, and all of them are ingress requests.
  set failures := f.samples.filter fun x => x.metric = .ingressLogicalFailure with hf
  set roots := (List.range f.size).filter fun r => (f.job r).parent = none with hro
  have hs : ∀ o ∈ failures.map (·.subject), o ∈ roots.map some := by
    intro o ho
    obtain ⟨x, hx, rfl⟩ := mem_map.1 ho
    obtain ⟨hx, hm⟩ := mem_filter.1 hx
    obtain ⟨-, r, hr, hsub, hp⟩ := hi.failure x hx hm
    rw [hsub]
    exact List.mem_map_of_mem (List.mem_filter.2 ⟨List.mem_range.2 hr, by simpa using hp⟩)
  have hn : (failures.map (·.subject)).Nodup := by
    refine nodup_iff_count_le_one.2 fun o => ?_
    by_cases ho : o ∈ failures.map (·.subject)
    · obtain ⟨r, -, rfl⟩ := List.mem_map.1 (hs o ho)
      refine le_trans (le_of_eq ?_) (hi.once r)
      rw [count_map, hf, filter_filter, failuresOf, countP_eq_card_filter]
      congr 1
      refine filter_congr fun x _ => ?_
      simp only [FailureOf, eq_comm, and_comm]
    · rw [count_eq_zero_of_notMem ho]
      exact Nat.zero_le 1
  calc failures.card = (failures.map (·.subject)).card := (card_map _ _).symm
    _ ≤ ((roots.map some : List (Option ReqId)) : Multiset (Option ReqId)).card :=
        card_le_card ((le_iff_subset hn).2 fun o ho => hs o ho)
    _ = roots.length := by simp

end SimCore.Protocol
