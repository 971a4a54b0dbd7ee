import SimCore.Protocol.Trace

/-!
# The settings of an attempt

An attempt looks its edge up by its target and takes the settings of the first one it finds. The
settings are those of its own edge if the edges of an endpoint with the same target agree.

## Main definitions

* `Settled`: edges of an endpoint with the same target have the same settings

## Main results

* `Reached.attempted`: an attempt uses the settings of its own edge
-/

namespace SimCore.Protocol

open Simd Resource Config Interaction

variable {env : Env} {f f' : Flow} {rc : ResolvedCall} {r : ReqId} {ms rate : ℚ} {retryable : Bool}

/-- Two declared calls have the same timeout, failure rate and retryable flag. -/
def SameSettings (a b : DownstreamCall) : Prop :=
  a.timeoutMs = b.timeoutMs ∧ a.failureRate = b.failureRate ∧ a.isRetryable = b.isRetryable

instance (a b : DownstreamCall) : Decidable (SameSettings a b) :=
  inferInstanceAs (Decidable (_ ∧ _))

/-- Edges of an endpoint with the same target have the same settings. -/
def Settled (sc : Scenario) : Prop :=
  ∀ svc ∈ sc.services, ∀ ep ∈ svc.endpoints, ∀ a ∈ downstreamEdges sc svc.id ep.path,
    ∀ b ∈ downstreamEdges sc svc.id ep.path,
      a.serviceID = b.serviceID → a.path = b.path → SameSettings a.call b.call

instance (sc : Scenario) : Decidable (Settled sc) :=
  inferInstanceAs (Decidable (∀ _ ∈ _, _))

/-- The edges of a service and a path are those of a declared endpoint. -/
theorem exists_endpoint_of_edge {sc : Scenario} {svc path : String}
    (hrc : rc ∈ downstreamEdges sc svc path) : ∃ svc' ∈ sc.services, ∃ ep ∈ svc'.endpoints,
      downstreamEdges sc svc path = downstreamEdges sc svc'.id ep.path := by
  obtain ⟨_, hc, -⟩ := List.mem_filterMap.1 hrc
  obtain ⟨_, he, -⟩ := List.mem_flatMap.1 hc
  obtain ⟨he, hk⟩ := List.mem_filter.1 he
  obtain ⟨svc', hs, he⟩ := List.mem_flatMap.1 he
  obtain ⟨ep, hep, rfl⟩ := List.mem_map.1 he
  refine ⟨svc', hs, ep, hep, ?_⟩
  rw [downstreamEdges, downstreamEdges, ← beq_iff_eq.1 hk]

/-- The lookup of an edge by its target finds the settings of the edge. -/
theorem resolveDownstreamCallSpec_settings {sc : Scenario} (hsc : Settled sc) {svc path : String}
    (hrc : rc ∈ downstreamEdges sc svc path) :
    SameSettings ((resolveDownstreamCallSpec sc svc path rc.serviceID rc.path).getD {})
      rc.call := by
  unfold resolveDownstreamCallSpec
  cases hfind : (downstreamEdges sc svc path).find? fun e =>
      e.serviceID == rc.serviceID && e.path == rc.path with
  | none =>
    rw [List.find?_eq_none] at hfind
    simpa using hfind rc hrc
  | some e =>
    have ht := List.find?_some hfind
    have hm := List.mem_of_find?_eq_some hfind
    simp only [Bool.and_eq_true, beq_iff_eq] at ht
    obtain ⟨svc', hs, ep, hep, heq⟩ := exists_endpoint_of_edge hrc
    rw [heq] at hrc hm
    exact hsc svc' hs ep hep e hm rc hrc ht.1 ht.2

/-- What an attempt finds by its target are the settings of its edge. -/
theorem Flow.FitsSpawn.settings (hsc : Settled env.scenario) {c : SpawnCore}
    (hf : f.FitsSpawn env c) (hrc : c.edge = some rc) :
    SameSettings (f.edgeFor env c) rc.call := by
  obtain ⟨hs, hp, -, hm⟩ := hf.edge rc hrc
  rw [Flow.edgeFor, ← hs, ← hp]
  exact resolveDownstreamCallSpec_settings hsc hm

/-- A call event carries the timeout of its edge. -/
def Timed (f : Flow) : Prop :=
  ∀ d rc, f.Pending (.downstreamCall d) → d.edge = some rc → d.timeoutMs = rc.call.timeoutMs

theorem Issued.timed {t : Time} {k : EventKind} {d : SpawnData} (h : Issued env f f' t k)
    (hk : k = .downstreamCall d) (hsc : Settled env.scenario) (hs : Shape env f)
    (hrc : d.edge = some rc) : d.timeoutMs = rc.call.timeoutMs := by
  have hc : (core d).edge = some rc := hrc
  cases h with
  | call _ _ _ _ _ _ _ _ _ _ hd hm =>
    cases hk
    rw [hd] at hc
    cases hc
    exact hm
  | overheadCall _ _ o _ hh hd hm =>
    cases hk
    have hf : f.FitsSpawn env (core o.spawn) := hs.fits_hand hh
    rw [hd] at hc
    rw [hm]
    exact (hf.settings hsc hc).1
  | loose _ _ hl => rw [hk] at hl; cases hl
  | overhead _ _ r phase o _ _ _ hh _ _ _ _ _ _ _ hmem
  | retryOverhead _ _ _ _ _ _ _ _ _ _ _ hmem => simp [OverheadData.events, hk] at hmem
  | publish _ _ _ _ _ _ _ hr => rw [hk] at hr; cases hr
  | spawnPublish _ _ _ _ _ _ _ _ hr => rw [hk] at hr; cases hr
  | ack ref => cases ref <;> cases hk
  | _ => cases hk

theorem Turn.timed (h : Turn env f f') (hsc : Settled env.scenario) (hs : Shape env f)
    (ht : Timed f) : Timed f' := by
  rintro d rc ⟨t, hk⟩ hrc
  rcases h.pending_cases hk with hk | hk | ⟨hk, -⟩
  · exact ht d rc ⟨t, hk⟩ hrc
  · exact hk.timed rfl hsc hs hrc
  · cases hk

theorem Reached.timed (h : Reached env f) (hsc : Settled env.scenario) : Timed f := by
  induction h with
  | start h =>
    rintro d _ ⟨t, hk⟩
    simp [Flow.PendingAt, h.hand, h.events] at hk
  | turn hf h ih => exact h.timed hsc hf.shape ih

theorem Timed.timeoutFor_eq (ht : Timed f) (hsc : Settled env.scenario) {t : Time} {k : EventKind}
    {c : SpawnCore} (hf : f.FitsSpawn env c) (hh : f.hand = .event t k) (hk : role k = .spawn c)
    (hrc : c.edge = some rc) : f.timeoutFor env c k = rc.call.timeoutMs := by
  have hs := (hf.settings hsc hrc).1
  cases k <;> try exact hs
  case downstreamCall d =>
    cases hk
    exact ht d rc ⟨t, .inl hh⟩ hrc

theorem Turn.noted_attempt (h : Turn env f f') {edge : Option ResolvedCall}
    (ho : .attempted r edge ms rate retryable ∈ f'.trace) :
    .attempted r edge ms rate retryable ∈ f.trace ∨
      r = f.size ∧ r < f'.size ∧ (f'.job r).edge = edge := by
  rcases h with h | h <;> cases h
  case spawnStart | spawnFail | spawnLost =>
    simp [Flow.attempt] at ho
    simp [SpawnCore.job]
    grind -ring -linarith
  case retry cause _ _ _ _ _ _ _ _ | giveUp cause _ _ =>
    cases cause <;> (left; simp [Cause.obs] at ho; grind -ring -linarith)
  all_goals (left; simp at ho; grind -ring -linarith)

/-- An attempt uses the settings of its own edge. -/
theorem Reached.attempted (h : Reached env f) (hsc : Settled env.scenario)
    (ho : .attempted r (some rc) ms rate retryable ∈ f.trace) :
    ms = rc.call.timeoutMs ∧ rate = rc.call.failureRate ∧ retryable = rc.call.isRetryable := by
  induction h with
  | start h => simp [h.trace] at ho
  | turn hf h ih =>
    rcases h.noted ho with ho | ho
    · exact ih ho
    · generalize hn : Obs.attempted r (some rc) ms rate retryable = new at ho
      cases ho with
      | attempted _ _ _ hh hk =>
        have hfit := hf.shape.fits_hand hh
        rw [hk] at hfit
        rw [Flow.attempt, Obs.attempted.injEq] at hn
        obtain ⟨-, hrc, rfl, rfl, rfl⟩ := hn
        exact ⟨(hf.timed hsc).timeoutFor_eq hsc hfit hh hk hrc.symm, (hfit.settings hsc hrc.symm).2⟩
      | missed _ _ _ _ _ _ _ _ _ _ ho =>
        rw [← hn] at ho
        simp at ho
      | _ => cases hn

/-- What is recorded of an attempt is recorded for its own edge. -/
theorem Reached.attempted_edge (h : Reached env f) {edge : Option ResolvedCall}
    (ho : .attempted r edge ms rate retryable ∈ f.trace) : r < f.size ∧ (f.job r).edge = edge := by
  induction h with
  | start h => simp [h.trace] at ho
  | @turn _ _ _ h ih =>
    rcases h.noted_attempt ho with ho | ⟨rfl, hlt, he⟩
    · obtain ⟨hlt, he⟩ := ih ho
      exact ⟨lt_of_lt_of_le hlt h.size_le, (h.sameOrigin hlt).edge.trans he⟩
    · exact ⟨hlt, he⟩

/-- Every request that was made over an edge was recorded as an attempt for it. -/
theorem Reached.exists_attempted (h : Reached env f) (hrc : (f.job r).edge = some rc) :
    ∃ ms rate retryable, .attempted r (some rc) ms rate retryable ∈ f.trace := by
  induction h with
  | start h => simp [h.jobs, default, instInhabitedJob.default] at hrc
  | @turn f _ _ h ih =>
    by_cases hr : r < f.size
    · rw [(h.sameOrigin hr).edge] at hrc
      obtain ⟨ms, rate, retryable, ho⟩ := ih hrc
      exact ⟨ms, rate, retryable, h.mem_trace ho⟩
    · have hn := default_origin (not_lt.1 hr)
      rcases h with h | h <;> cases h
      case spawnStart k c _ _ _ _ | spawnFail k c _ _ | spawnLost k c _ _ _ _ =>
        -- the attempt is the new request, and the same action notes it
        have hs : r = f.size ∧ c.edge = some rc := by
          by_cases hs : r = f.size
          · simp_all [SpawnCore.job]
          · simp [hs, hn] at hrc
        refine ⟨f.timeoutFor env c k, (f.edgeFor env c).failureRate, (f.edgeFor env c).isRetryable,
          ?_⟩
        simp [Flow.attempt, hs]
      all_goals (simp [hn, consumerJob] at hrc <;> grind -ring -linarith)

end SimCore.Protocol
