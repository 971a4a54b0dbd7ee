import SimCore.Protocol.Ingress
import SimCore.Protocol.Trace

/-!
# Reports to the circuit breaker

An attempt is reported when its call times out, when it fails at its start for lack of resources,
and when it is finalised. It has at most one timeout event, and it fails or is finalised at most
once; so it is reported twice only if it timed out before.

## Main definitions

* `timedOut`: the call of the attempt has timed out
* `reportsOf`: the reports of an attempt

## Main results

* `Reached.reports_le`: an attempt is reported at most once by its timeout, and at most once else
-/

namespace SimCore.Protocol

open Simd Resource

variable {env : Env} {f f' : Flow} {x : ReqId}

/-- The call of the attempt has timed out. -/
def timedOut (j : Job) : Bool :=
  j.syncWaitTimedOut || j.asyncOpTimedOut || j.asyncAttemptAbandoned

def reportsOf (f : Flow) (r : ReqId) : Nat :=
  f.trace.count (.breaker r true) + f.trace.count (.breaker r false)

/-- The event is the timeout of an attempt. -/
def TimeoutOf (r : ReqId) (k : EventKind) : Prop :=
  ∃ p isAsync, role k = .timeout r p isAsync

instance (r : ReqId) : DecidablePred (TimeoutOf r) := fun k =>
  decidable_of_iff ((match k with | .downstreamTimeout x _ _ => x == r | _ => false) = true) (by
    cases k <;> simp [TimeoutOf, role])

/-- An attempt times out at most once. -/
def Once (f : Flow) (r : ReqId) : Prop :=
  f.count (TimeoutOf r) + (timedOut (f.job r)).toNat ≤ 1

theorem count_timeout_new (hs : Shape env f) : f.count (TimeoutOf f.size) = 0 := by
  refine Nat.eq_zero_of_not_pos fun hp => ?_
  obtain ⟨k, hk, p, _, hr⟩ := (Flow.count_pos _).1 hp
  have hf := hs.fits k hk
  rw [hr] at hf
  exact absurd (lt_of_parent hf.1) (lt_irrefl _)

theorem Turn.once (h : Turn env f f') (hs : Shape env f) (hx : Once f x) : Once f' x := by
  have hn := default_origin (le_refl f.size)
  have hz := count_timeout_new hs
  unfold Once Flow.count at hx ⊢
  unfold Flow.count at hz
  rcases h with h | h <;> cases h
  case timeoutRetry | timeoutReport | timeoutAbandon | timeoutGiveUp =>
    simp [*, TimeoutOf] at hx ⊢
    grind -ring -linarith [timedOut]
  case await es hh _ _ hes =>
    have hes : tally (TimeoutOf x) es = 0 :=
      hes.tally_eq_zero _ (fun k d hk => by simp [TimeoutOf, hk])
        fun k d hk => by simp [TimeoutOf, hk]
    simpa [hh, hes] using hx
  case pop hh _ _ he _ _ =>
    simp [hh, he] at hx ⊢
    omega
  case schedule hk => simpa [TimeoutOf, role_of_external hk] using hx
  case spawnStart | spawnFail | spawnLost | accept | reject | dispatch =>
    simp [*, TimeoutOf, SpawnCore.job, timedOut, consumerJob] at hx hz hn ⊢
    grind -ring -linarith
  case ackDead del _ hh hk _ _ _ _ =>
    rcases deadLetterRole_cases del.shard del.message with hd | hd
    all_goals
      simp [hh, hk, hd, TimeoutOf] at hx ⊢
      grind -ring -linarith [timedOut]
  all_goals
    simp [*, TimeoutOf] at hx ⊢
    grind -ring -linarith [timedOut]

theorem Reached.once (h : Reached env f) (r : ReqId) : Once f r := by
  induction h with
  | start h => simp [Once, Flow.count, timedOut, h.hand, h.events, h.jobs, default,
      instInhabitedJob.default]
  | turn hf h ih => exact h.once hf.shape ih

/-- Two jobs agree on the flags that a timeout sets. -/
structure SameFlags (j j' : Job) : Prop where
  syncWait : j'.syncWaitTimedOut = j.syncWaitTimedOut
  asyncOp : j'.asyncOpTimedOut = j.asyncOpTimedOut
  abandoned : j'.asyncAttemptAbandoned = j.asyncAttemptAbandoned
  resolved : j.callerSyncResolved = true → j'.callerSyncResolved = true

/-- The flags that the timeout of a synchronous or an asynchronous attempt sets. -/
structure SetsFlags (f' : Flow) (j : Job) (r p : ReqId) (isAsync : Bool) : Prop where
  running : j.status ≠ .completed
  sync : isAsync = false → (f'.job r).syncWaitTimedOut = true ∧
    (f'.job r).asyncOpTimedOut = j.asyncOpTimedOut ∧
    ((f'.job r).callerSyncResolved = true ∨ f'.hand = .report r p true)
  async : isAsync = true → (f'.job r).syncWaitTimedOut = j.syncWaitTimedOut ∧
    (f'.job r).callerSyncResolved = j.callerSyncResolved ∧
    ((f'.job r).asyncOpTimedOut = true ∨ (f'.job r).asyncAttemptAbandoned = true ∧
      (f'.job r).asyncOpTimedOut = j.asyncOpTimedOut)

/-- Only its timeout changes the flags of an attempt. -/
theorem Turn.flags_cases (h : Turn env f f') (hs : Shape env f) (x : ReqId) :
    SameFlags (f.job x) (f'.job x) ∨ ∃ t p isAsync,
      f.hand = .event t (.downstreamTimeout x p isAsync) ∧ SetsFlags f' (f.job x) x p isAsync := by
  rcases lt_or_ge x f.size with hx | hx
  · have hstep := h.jobStep hs hx
    generalize hj : f'.job x = j at hstep
    cases hstep with
    | timeoutRetry t p hh _ hst =>
      refine .inr ⟨t, p, false, hh, hst, fun _ => ?_, nofun⟩
      simp [hj]
    | timeoutReport t p hh _ hst hh' =>
      refine .inr ⟨t, p, false, hh, hst, fun _ => ?_, nofun⟩
      simp [hj, hh']
    | timeoutAbandon t p hh hst | timeoutGiveUp t p hh hst =>
      refine .inr ⟨t, p, true, hh, hst.1, nofun, fun _ => ?_⟩
      simp [hj]
    | retry | report => exact .inl ⟨rfl, rfl, rfl, fun _ => rfl⟩
    | _ => exact .inl ⟨rfl, rfl, rfl, id⟩
  · rw [default_origin hx]
    rcases h.newJob hx with hj | ⟨-, hj⟩
    · exact .inl (hj ▸ ⟨rfl, rfl, rfl, id⟩)
    · generalize f'.job x = j at hj
      cases hj <;> exact .inl ⟨rfl, rfl, rfl, nofun⟩

/-- What the flags of a timed-out attempt say. -/
structure Flags (f : Flow) : Prop where
  sync : ∀ r, (f.job r).syncWaitTimedOut = true → (f.job r).downstreamAsync = false
  async : ∀ r, (f.job r).asyncOpTimedOut = true → (f.job r).downstreamAsync = true
  /-- The caller of a timed-out synchronous attempt no longer waits for it. -/
  resolved : ∀ r, (f.job r).syncWaitTimedOut = true → (f.job r).callerSyncResolved = true ∨
    ∃ p failed, f.hand = .report r p failed

/-- A report ends the wait of the caller, unless the attempt is asynchronous. -/
theorem Turn.report_cases (h : Turn env f f') (hs : Shape env f) {p : ReqId} {failed : Bool}
    (hh : f.hand = .report x p failed) :
    (f.job x).downstreamAsync = true ∨ (f'.job x).callerSyncResolved = true := by
  have hlt : x < f.size := by
    have hha := hs.hand
    rw [hh] at hha
    exact lt_of_parent hha
  rcases h with h | h <;> cases h
  case reportSkip hh' hn =>
    obtain ⟨rfl, -, -⟩ := by simpa [hh] using hh'
    simpa using hn
  case reportIdle hh' _ _ _ =>
    obtain ⟨rfl, -, -⟩ := by simpa [hh] using hh'
    simp [hlt]
  case reportCount hh' _ _ _ =>
    obtain ⟨rfl, -, -⟩ := by simpa [hh] using hh'
    right
    simp [hlt]
    split <;> rfl
  all_goals simp_all

theorem Turn.flags (h : Turn env f f') (hs : Shape env f) (hf : Flags f) : Flags f' := by
  have hasync (x : ReqId) : x < f.size → (f'.job x).downstreamAsync = (f.job x).downstreamAsync :=
    fun hx => (h.sameOrigin hx).downstreamAsync
  have hlt {x : ReqId} {g : Job → Bool} (hg : g (f.job x) = true) (hd : g {} = false) :
      x < f.size := by
    by_contra hle
    rw [default_origin (not_lt.1 hle), hd] at hg
    cases hg
  constructor
  case sync =>
    intro x hx
    rcases h.flags_cases hs x with hsa | ⟨t, p, isAsync, hh, hset⟩
    · rw [hsa.syncWait] at hx
      rw [hasync x (hlt (g := Job.syncWaitTimedOut) hx rfl), hf.sync x hx]
    · obtain ⟨hp, ha⟩ := hs.fits_hand hh
      rw [hasync x (lt_of_parent hp), ha]
      cases isAsync with
      | false => rfl
      | true =>
        rw [(hset.async rfl).1] at hx
        rw [← ha, hf.sync x hx]
  case async =>
    intro x hx
    rcases h.flags_cases hs x with hsa | ⟨t, p, isAsync, hh, hset⟩
    · rw [hsa.asyncOp] at hx
      rw [hasync x (hlt (g := Job.asyncOpTimedOut) hx rfl), hf.async x hx]
    · obtain ⟨hp, ha⟩ := hs.fits_hand hh
      rw [hasync x (lt_of_parent hp), ha]
      cases isAsync with
      | true => rfl
      | false =>
        rw [(hset.sync rfl).2.1] at hx
        rw [← ha, hf.async x hx]
  case resolved =>
    intro x hx
    rcases h.flags_cases hs x with hsa | ⟨t, p, isAsync, hh, hset⟩
    · rw [hsa.syncWait] at hx
      rcases hf.resolved x hx with hr | ⟨p, _, hh⟩
      · exact .inl (hsa.resolved hr)
      · have hsy := hf.sync x hx
        rcases h.report_cases hs hh with ha | hr
        · simp [hsy] at ha
        · exact .inl hr
    · cases isAsync with
      | false => exact (hset.sync rfl).2.2.imp_right fun hh => ⟨p, true, hh⟩
      | true =>
        rw [(hset.async rfl).1] at hx
        have ha := (hs.fits_hand hh).2
        rw [hf.sync x hx] at ha
        cases ha

theorem Reached.flags (h : Reached env f) : Flags f := by
  induction h with
  | start h => constructor <;> simp [h.jobs, default, instInhabitedJob.default]
  | turn hf h ih => exact h.flags hf.shape ih

/-- The attempt has failed for good, or it has completed and its timeout did not end it. -/
def Over (f : Flow) (r : ReqId) : Prop :=
  Doomed f r ∨ (f.job r).desFinalized = true ∧ (f.job r).status = .completed ∧
    (timedOut (f.job r) = false ∨ .completedAfterAsyncTimeout r ∈ f.trace)

/-- An attempt is reported at most once by its timeout, and at most once when it is over. -/
structure Reports (f : Flow) (r : ReqId) : Prop where
  le : reportsOf f r ≤ (timedOut (f.job r)).toNat + 1
  running : ¬ Over f r → reportsOf f r ≤ (timedOut (f.job r)).toNat

theorem SameFlags.timedOut_eq {j j' : Job} (h : SameFlags j j') : timedOut j' = timedOut j := by
  rw [timedOut, timedOut, h.syncWait, h.asyncOp, h.abandoned]

theorem Turn.timedOut_mono (h : Turn env f f') (hs : Shape env f) (hx : timedOut (f.job x) = true) :
    timedOut (f'.job x) = true := by
  rcases h.flags_cases hs x with hsa | ⟨t, p, isAsync, _, hset⟩
  · rw [hsa.timedOut_eq, hx]
  · cases isAsync with
    | false => simp [timedOut, (hset.sync rfl).1]
    | true => rcases (hset.async rfl).2.2 with h | ⟨h, -⟩ <;> simp [timedOut, h]

theorem Turn.timedOut_of_completed (h : Turn env f f') (hs : Shape env f)
    (hx : (f.job x).status = .completed) (ht : timedOut (f.job x) = false) :
    timedOut (f'.job x) = false := by
  rcases h.flags_cases hs x with hsa | ⟨t, p, _, _, hset⟩
  · rw [hsa.timedOut_eq, ht]
  · exact absurd hx hset.running

theorem Turn.over (h : Turn env f f') (hs : Shape env f) (hst : Stages f) (hx : Over f x) :
    Over f' x := by
  rcases hx with hx | ⟨hf, hd, hto⟩
  · exact .inl (h.doomed hst hx)
  · exact .inr ⟨h.final_mono hf, h.completed_mono hst hd,
      hto.imp (h.timedOut_of_completed hs hd) h.mem_trace⟩

theorem not_over_of_start (hs : Stages f) {t : Time} {r : ReqId} {i : String}
    (hh : f.hand = .event t (.requestStart r i)) : ¬ Over f r := by
  have hst := hs.steady r
  have hstage := hs.of_start hh
  rintro (hx | ⟨_, -, -⟩)
  · have := hx.status
    simp_all [Steady]
  · simp_all [Steady]

theorem not_over_of_due {r : ReqId} {failed : Bool} (hh : f.hand = .due r failed)
    (hf : (f.job r).desFinalized = false) : ¬ Over f r := by
  rintro (hx | ⟨hfin, -, -⟩)
  · rcases hx.stuck with hfin | ⟨-, hd, -⟩
    · simp [hf] at hfin
    · exact hd failed hh
  · simp [hf] at hfin

/-- How a turn reports an attempt: once, when the call times out or when the attempt is over. -/
theorem Turn.reports_cases (h : Turn env f f') (hs : Shape env f) (hst : Stages f) (hf : Flags f)
    (x : ReqId) :
    reportsOf f' x = reportsOf f x ∨ reportsOf f' x = reportsOf f x + 1 ∧
      (0 < f.count (TimeoutOf x) ∧ timedOut (f'.job x) = true ∨ ¬ Over f x ∧ Over f' x) := by
  unfold reportsOf
  rcases h with h | h <;> cases h
  case startMissing r _ _ _ hh _ | startRefuse r _ _ _ _ hh =>
    by_cases hx : x = r
    · subst hx
      have hlt : x < f.size := hs.fits_hand hh
      refine .inr ⟨by simp; omega, .inr ⟨not_over_of_start hst hh, .inl ?_⟩⟩
      constructor <;> simp [hlt]
    · left
      simp [hx]
  case timeoutRetry t _ r p _ hh _ _ _ _ _ | timeoutReport t r p hh _ _
    | timeoutAbandon t _ r p _ hh _ _ _ _ | timeoutGiveUp t r p hh _ =>
    by_cases hx : x = r
    · subst hx
      have hlt := lt_of_parent (hs.fits_hand hh).1
      refine .inr ⟨by simp; omega, .inl ⟨(Flow.count_pos _).2 ⟨_, ⟨t, .inl hh⟩, p, _, rfl⟩, ?_⟩⟩
      simp [timedOut, hlt]
    · left
      simp [hx]
  case closeOk r hh hfin ha _ ho _ =>
    by_cases hx : x = r
    · subst hx
      have hlt : x < f.size := by simpa [HandShape, hh] using hs.hand
      have hr := hf.resolved x
      have hasync := hf.async x
      cases hsy : (f.job x).syncWaitTimedOut with
      | true =>
        left
        simp [hh] at hr hsy
        simp [hr hsy]
      | false =>
        have hto : timedOut (f.job x) = false := by
          simp [timedOut, ha, hsy]
          grind -ring -linarith
        refine .inr ⟨by simp at hsy; simp; omega, .inr ⟨not_over_of_due hh hfin, .inr ?_⟩⟩
        exact ⟨by simp [hlt], by simp [hlt], .inl (by simpa [hlt, timedOut] using hto)⟩
    · left
      simp
      split_ifs <;> simp [hx]
  case closeTimedOut r hh hfin _ _ _ =>
    by_cases hx : x = r
    · subst hx
      have hlt : x < f.size := by simpa [HandShape, hh] using hs.hand
      refine .inr ⟨by simp; omega, .inr ⟨not_over_of_due hh hfin, .inr ?_⟩⟩
      simp [hlt]
    · left
      simp [hx]
  case closeFailed r _ _ hh _ hfin =>
    by_cases hx : x = r
    · subst hx
      have hlt : x < f.size := by simpa [HandShape, hh] using hs.hand
      refine .inr ⟨by simp; omega, .inr ⟨not_over_of_due hh hfin, .inl ?_⟩⟩
      constructor <;> simp [hlt]
    · left
      simp [hx]
  case retry cause _ _ _ _ _ _ _ _ | giveUp cause _ _ =>
    left
    cases cause <;> simp [Cause.obs] <;> split_ifs <;> simp
  case ackIgnore | ackRequeue | ackDead =>
    left
    simp
    split_ifs <;> simp
  all_goals
    left
    simp [Flow.attempt]

theorem Turn.reports (h : Turn env f f') (hs : Shape env f) (hst : Stages f) (hf : Flags f)
    (hx : Reports f x) (hon : Once f x) : Reports f' x := by
  have hm := h.timedOut_mono hs (x := x)
  have hov := h.over hs hst (x := x)
  have hle : (timedOut (f.job x)).toNat ≤ (timedOut (f'.job x)).toNat := by
    cases ht : timedOut (f.job x) with
    | false => exact Nat.zero_le _
    | true => rw [hm ht]
  rcases h.reports_cases hs hst hf x with heq | ⟨heq, ⟨_, hto⟩ | ⟨hnot, ho'⟩⟩
  · exact ⟨heq ▸ hx.le.trans (by omega),
      fun hn => heq ▸ (hx.running fun ho => hn (hov ho)).trans hle⟩
  · -- the timeout event was in hand, so the attempt had not timed out before
    have hto₀ : (timedOut (f.job x)).toNat = 0 := by
      unfold Once at hon
      omega
    have hle' := hx.le
    refine ⟨by rw [heq, hto]; simp; omega, fun hn => ?_⟩
    have hr := hx.running fun ho => hn (hov ho)
    rw [heq, hto]
    simp
    omega
  · have hr := hx.running hnot
    exact ⟨by omega, fun hn => absurd ho' hn⟩

theorem Reached.reports (h : Reached env f) (r : ReqId) : Reports f r := by
  induction h with
  | start h => constructor <;> simp [reportsOf, h.trace]
  | turn hf h ih => exact h.reports hf.shape hf.stages hf.flags ih (hf.once r)

end SimCore.Protocol
