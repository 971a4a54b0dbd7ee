import SimCore.Protocol.Stages

/-!
# Times of pending events

The event in hand is the present one, and no pending event lies in the past, unless it is a retry
under a policy with a negative backoff or the outside has scheduled events for the past. A start
happens when its request arrives, or at the CPU interval that deferred it.

## Main definitions

* `Clock`: the invariants that tie events to times

## Main results

* `Reached.clock`: the invariants hold in every reached protocol state
-/

namespace SimCore.Protocol

open Simd Resource

variable {env : Env} {f f' : Flow} {t : Time} {k : EventKind}

/-- A spawn that replaces a failed attempt. -/
def retries : EventKind → Bool
  | .downstreamRetry _ => true
  | _ => false

/-- The time at which a request starts: at its arrival, or when its CPU interval begins. -/
def startTime (j : Job) : Time :=
  match j.cpuDeferred with
  | some span => span.1
  | none => j.arrivalTime

/-- The CPU interval of the caller that an event belongs to, with the end that it marks. -/
def overheadTime : EventKind → Option (OverheadData × Time)
  | .callerOverheadStart o => some (o, o.reservedCPUStart)
  | .callerOverheadEnd o => some (o, o.reservedCPUEnd)
  | _ => none

/-- The invariants that tie events to times. -/
structure Clock (env : Env) (f : Flow) : Prop where
  hand : ∀ t k, f.hand = .event t k → t = f.now
  future : ∀ t k, (t, k) ∈ f.events → (retries k = true → Forward env) → f.backdated = false →
    f.now ≤ t
  start : ∀ t r i, f.PendingAt t (.requestStart r i) → t = startTime (f.job r)
  deferred : ∀ r span, (f.job r).cpuDeferred = some span → span.1 ≤ span.2
  overhead : ∀ t k o t', f.PendingAt t k → overheadTime k = some (o, t') → o.Sound ∧ t = t'

/-- Only a start event in hand changes the CPU interval of its request. -/
theorem Turn.cpuDeferred_cases (h : Turn env f f') (x : ReqId) :
    (f'.job x).cpuDeferred = (f.job x).cpuDeferred ∨
      f'.hand.idle = true ∧ ∃ t i, f.hand = .event t (.requestStart x i) ∧
        ∀ span, (f'.job x).cpuDeferred = some span → span.1 ≤ span.2 := by
  have hn := default_origin (le_refl f.size)
  rcases h with h | h <;> cases h
  case startDefer t r i _ _ hh _ _ _ hc =>
    by_cases hx : x = r ∧ x < f.jobs.length
    · obtain ⟨rfl, hx⟩ := hx
      refine .inr ⟨rfl, t, i, hh, ?_⟩
      simpa [hx] using hc
    · left
      simp [hx]
  case startRun t _ r i _ _ _ _ hh _ _ _ _ | startRefuse t r i _ _ _ hh =>
    by_cases hx : x = r ∧ x < f.jobs.length
    · obtain ⟨rfl, hx⟩ := hx
      refine .inr ⟨rfl, t, i, hh, ?_⟩
      simp [hx]
    · left
      simp [hx]
  all_goals
    left
    simp at hn ⊢ <;> grind -ring -linarith [SpawnCore.job, consumerJob]

/-- No event is issued for the past, unless it is a retry. -/
theorem Issued.future (h : Issued env f f' t k) (hk : retries k = true → Forward env) :
    f.now ≤ t := by
  cases h with
  | loose _ _ _ ht | complete _ _ _ _ _ ht | call _ _ _ _ _ _ _ _ _ _ _ _ ht
    | overheadCall _ _ _ _ _ _ _ ht | publish _ _ _ _ _ _ _ _ ht | spawnPublish _ _ _ _ _ _ _ _ _ ht
    | finalize _ _ _ _ ht => exact ht
  | start => exact le_rfl
  | restart _ _ _ _ _ _ hn => exact hn.le
  | retry _ _ _ _ _ _ _ ht | overheadRetry _ _ _ _ _ _ ht => exact ht (hk rfl)
  | overhead _ _ _ _ o _ _ _ _ _ _ _ _ ho ht _ hmem
    | retryOverhead _ _ _ _ o _ _ _ ho ht _ hmem =>
    simp only [OverheadData.events, List.mem_cons, Prod.mk.injEq, List.not_mem_nil,
      or_false] at hmem
    obtain ⟨rfl, -⟩ | ⟨rfl, -⟩ := hmem
    · exact ht.trans ho.start_le
    · exact ht
  | timeout _ _ c _ _ hm _ => exact le_add_of_nonneg_right (wholeMsToDuration_nonneg hm.le)
  | ack _ _ _ hm _ => exact le_add_of_nonneg_right (wholeMsToDuration_nonneg hm.le)

theorem Issued.overhead_sound {t' : Time} {o : OverheadData} (h : Issued env f f' t k)
    (hk : overheadTime k = some (o, t')) : o.Sound ∧ t = t' := by
  cases h with
  | overhead _ _ _ _ o _ _ _ _ _ _ _ _ ho ht _ hm
    | retryOverhead _ _ _ _ o _ _ _ ho ht _ hm =>
    simp only [OverheadData.events, List.mem_cons, Prod.mk.injEq, List.not_mem_nil, or_false] at hm
    obtain ⟨rfl, rfl⟩ | ⟨rfl, rfl⟩ := hm
    all_goals
      obtain ⟨rfl, rfl⟩ := by simpa [overheadTime] using hk
      exact ⟨ho, rfl⟩
  | loose _ _ hl | publish _ _ _ _ _ _ _ hl | spawnPublish _ _ _ _ _ _ _ _ hl =>
    cases k <;> cases hk <;> cases hl
  | ack ref => cases ref <;> cases hk
  | _ => cases hk

/-- When a new start event is issued, its request starts then. -/
theorem Issued.start_time {r : ReqId} {i : String} (h : Issued env f f' t k)
    (hk : k = .requestStart r i) (ht : Turn env f f') (hsh : Shape env f) :
    t = startTime (f'.job r) := by
  cases h with
  | start _ _ hn =>
    cases hk
    obtain ⟨-, ho⟩ := ht.origin le_rfl hn
    have hno : (f'.job f.size).cpuDeferred = none := by
      rcases ht.cpuDeferred_cases f.size with heq | ⟨-, t, i, hh, -⟩
      · rw [heq, default_origin le_rfl]
      · exact absurd (hsh.fits_hand hh) (Nat.lt_irrefl _)
    rw [startTime, hno]
    cases ho with
    | root _ _ h | child _ _ _ _ _ h | consumer _ _ _ _ _ _ _ h => exact h.arrivalTime.symm
  | restart _ _ _ _ hh _ _ _ hd =>
    cases hk
    simp [startTime, hd (hsh.fits_hand hh)]
  | loose _ _ hl =>
    subst hk
    cases hl
  | overhead _ _ _ _ _ _ _ _ _ _ _ _ _ _ _ _ hm | retryOverhead _ _ _ _ _ _ _ _ _ _ _ hm =>
    simp [OverheadData.events, hk] at hm
  | publish _ _ _ _ _ _ _ hp | spawnPublish _ _ _ _ _ _ _ _ hp => simp [hk] at hp
  | ack ref => cases ref <;> cases hk
  | _ => cases hk

theorem Act.backdated_eq (h : Act env f f') : f'.backdated = f.backdated := by
  cases h <;> simp

theorem Turn.backdated (h : Turn env f f') (hb : f'.backdated = false) : f.backdated = false := by
  rcases h with h | h
  · exact h.backdated_eq ▸ hb
  · cases h with
    | schedule => exact (Bool.or_eq_false_iff.1 hb).1
    | pop | scale | sweep => exact hb

theorem Turn.clock (h : Turn env f f') (hsh : Shape env f) (hs : Stages f) (hc : Clock env f) :
    Clock env f' where
  hand t k hh := by
    rcases h.hand_event_cases hh with ⟨hh, hn⟩ | ⟨-, hn, -⟩
    · rw [hn]
      exact hc.hand t k hh
    · exact hn.symm
  future t k hk hr hb := by
    rcases h.now_cases with hn | hle
    · rw [hn]
      rcases h.events_cases hk with hold | hi | ⟨-, ht⟩
      · exact hc.future t k hold hr (h.backdated hb)
      · exact hi.future hr
      · exact ht hb
    · exact hle (t, k) hk
  start t r i hk := by
    have hsa : (f'.job r).cpuDeferred = (f.job r).cpuDeferred → f.PendingAt t (.requestStart r i) →
        t = startTime (f'.job r) := by
      intro heq hold
      rw [hc.start t r i hold, startTime, startTime, heq,
        (h.sameOrigin (hsh.fits _ ⟨t, hold⟩)).arrivalTime]
    rcases h.cpuDeferred_cases r with heq | ⟨hid, t', i', hh, -⟩
    · rcases h.pending_cases hk with hold | hi | ⟨he, -⟩
      · exact hsa heq hold
      · exact hi.start_time rfl h hsh
      · cases he
    -- The start of the request is in hand, so there is no other one.
    · have hco := hs.queued r
      rw [if_pos (hs.of_start hh), Flow.count, hh] at hco
      rcases hk with hk | hk
      · rw [hk] at hid
        cases hid
      · rcases h.events_cases hk with hold | hi | ⟨he, -⟩
        · have hp : 0 < tally (role · = .start r) f.events :=
            (tally_pos _).2 ⟨t, _, hold, rfl⟩
          simp at hco
          omega
        · exact hi.start_time rfl h hsh
        · cases he
  deferred r span hspan := by
    rcases h.cpuDeferred_cases r with heq | ⟨-, t, i, hh, hle⟩
    · exact hc.deferred r span (heq ▸ hspan)
    · exact hle span hspan
  overhead t k o t' hk ho := by
    rcases h.pending_cases hk with hold | hi | ⟨he, -⟩
    · exact hc.overhead t k o t' hold ho
    · exact hi.overhead_sound ho
    · cases k <;> cases ho <;> cases he

theorem Flow.Initial.clock (h : f.Initial env) : Clock env f := by
  have hj : ∀ r, f.job r = {} := fun r => default_origin (by simp [h.jobs])
  constructor <;> simp [Flow.PendingAt, h.hand, h.events, hj]

theorem Reached.clock (h : Reached env f) : Clock env f := by
  induction h with
  | start h => exact h.clock
  | turn hf h ih => exact h.clock hf.shape hf.stages ih

end SimCore.Protocol
