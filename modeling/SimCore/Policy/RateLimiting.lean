import SimCore.Base.Text

/-!
# Rate limiting

A token bucket for each service and endpoint. A bucket gains whole tokens only, and its refill clock
moves only when it gains some. Reading the quota refills as well, so it moves that clock.

## Main definitions

* `TokenBucket.refill`, `RateLimiter.allowRequest`, `RateLimiter.getRemainingQuota`
* `RateLimiter.answers`: the answers to the requests in a sequence of calls
* `RateLimiter.Unwrapped`: no call of a sequence lets the tokens of the bucket wrap around
* `RateLimiter.Harmless`: the readings in a sequence of calls that no later request notices

## Main results

* `RateLimiter.allowed_in_window_le`: the requests allowed within a window of time, if no tokens
  wrap around
* `RateLimiter.answers_without_readings`: harmless readings do not change the answers
-/

namespace SimCore.Policy

open List

/-- A bucket of tokens; the refill rate is per second. -/
structure TokenBucket where
  capacity : Int
  tokens : Int
  refillRate : Int
  lastRefill : Time
deriving DecidableEq

namespace TokenBucket

variable (b : TokenBucket) (t e : Time) {r : Int}

/-- The tokens due since the last refill. -/
def due : ℚ :=
  durationToSeconds (t - b.lastRefill) * b.refillRate

/-- Tokens for the time since the last refill. -/
def refill : TokenBucket :=
  let tokensToAdd := toInt64 (b.due t)
  if tokensToAdd > 0 then
    let tokens := wrapInt64 (b.tokens + tokensToAdd)
    { b with tokens := if tokens > b.capacity then b.capacity else tokens, lastRefill := t }
  else b

/-- One token less, if there is one. -/
def spend : TokenBucket :=
  if b.tokens > 0 then { b with tokens := b.tokens - 1 } else b

/-- The tokens do not wrap around. -/
def Unwrapped : Prop :=
  b.tokens + truncate (b.due t) < 2 ^ 63

variable {b t} in
theorem refill_of_due_lt_one (h : b.due t < 1) : b.refill t = b := by
  refine if_neg fun hp => ?_
  rw [gt_iff_lt, toInt64_eq_truncate hp] at hp
  have hlt : truncate (b.due t) < 1 := by exact_mod_cast (truncate_le_of_pos hp).trans_lt h
  omega

theorem refill_refill : (b.refill t).refill t = b.refill t := by
  by_cases ha : 0 < toInt64 (b.due t)
  · have hl : (b.refill t).lastRefill = t := by simp [refill, ha]
    exact refill_of_due_lt_one (by simp [due, hl, durationToSeconds])
  · have he : b.refill t = b := if_neg ha
    rw [he, he]

variable {b t} in
/-- A refill does nothing as long as less than one token is due, and else adds the whole tokens that
are due, up to the capacity. -/
theorem refill_cases (h0 : 0 ≤ b.tokens) (hu : b.Unwrapped t) : b.refill t = b ∧ b.due t < 1 ∨
    ∃ n : Int, 0 < n ∧ (n : ℚ) ≤ b.due t ∧
      b.refill t = { b with tokens := min (b.tokens + n) b.capacity, lastRefill := t } := by
  unfold Unwrapped at hu
  by_cases ha : 0 < truncate (b.due t)
  · have he : toInt64 (b.due t) = truncate (b.due t) := if_pos (by omega)
    refine .inr ⟨_, ha, truncate_le_of_pos ha, ?_⟩
    have hw : wrapInt64 (b.tokens + truncate (b.due t)) = b.tokens + truncate (b.due t) :=
      wrapInt64_of_lt (by omega) hu
    simp only [refill, he, hw, gt_iff_lt, if_pos ha]
    split_ifs with hc
    · rw [min_eq_right (le_of_lt hc)]
    · rw [min_eq_left (not_lt.1 hc)]
  · have hlt := lt_one_of_truncate_nonpos (not_lt.1 ha)
    exact .inl ⟨refill_of_due_lt_one hlt, hlt⟩

/-- The bucket respects the rate of its limiter. -/
structure Within (r : Int) (b : TokenBucket) : Prop where
  capacity : b.capacity = r
  refillRate : b.refillRate = r
  tokens_nonneg : 0 ≤ b.tokens
  tokens_le : b.tokens ≤ r

/-- What the bucket can give until a time: its tokens and what is due by then. -/
def reserve : ℚ :=
  b.tokens + max 0 (durationToSeconds (e - b.lastRefill)) * b.refillRate

variable {b} {t e}

namespace Within

variable (h : b.Within r)
include h

theorem refill (hu : b.Unwrapped t) : (b.refill t).Within r := by
  rcases refill_cases h.tokens_nonneg hu with ⟨heq, -⟩ | ⟨n, hn, -, heq⟩
  · rwa [heq]
  · obtain ⟨hc, hr, h0, hle⟩ := h
    rw [heq]
    exact ⟨hc, hr, le_min (by omega) (by omega), hc ▸ min_le_right _ _⟩

theorem spend : b.spend.Within r := by
  unfold TokenBucket.spend
  split_ifs with ht
  · exact ⟨h.capacity, h.refillRate, Int.sub_nonneg.2 ht,
      (Int.sub_le_self _ (by decide)).trans h.tokens_le⟩
  · exact h

theorem rate_nonneg : (0 : ℚ) ≤ r := by
  exact_mod_cast h.tokens_nonneg.trans h.tokens_le

theorem reserve_nonneg (e : Time) : 0 ≤ b.reserve e := by
  have hr := h.rate_nonneg
  have h0 := h.tokens_nonneg
  rw [reserve, h.refillRate]
  positivity

/-- A refill adds tokens that were due, so it adds nothing to the reserve. -/
theorem reserve_refill_le (hu : b.Unwrapped t) (hte : t ≤ e) :
    (b.refill t).reserve e ≤ b.reserve e := by
  rcases refill_cases h.tokens_nonneg hu with ⟨heq, -⟩ | ⟨n, -, hle, heq⟩
  · rw [heq]
  · have hmin : ((min (b.tokens + n) b.capacity : Int) : ℚ) ≤ b.tokens + n := by
      exact_mod_cast min_le_left _ _
    rw [due, h.refillRate] at hle
    have hm := mul_le_mul_of_nonneg_right
      (le_max_right 0 (durationToSeconds (e - b.lastRefill))) h.rate_nonneg
    have hp := durationToSeconds_nonneg (sub_nonneg.2 hte)
    rw [heq, reserve, reserve, h.refillRate, max_eq_right hp]
    rw [durationToSeconds_sub e t b.lastRefill] at hm ⊢
    linarith

/-- A refilled bucket holds at most `r` tokens, and less than one more is due. -/
theorem reserve_refill_lt (hu : b.Unwrapped t) (hte : t ≤ e) :
    (b.refill t).reserve e < r + durationToSeconds (e - t) * r + 1 := by
  have hw := h.refill hu
  have hle : ((b.refill t).tokens : ℚ) ≤ r := by exact_mod_cast hw.tokens_le
  have hd : durationToSeconds (t - (b.refill t).lastRefill) * r < 1 := by
    rcases refill_cases h.tokens_nonneg hu with ⟨heq, hlt⟩ | ⟨n, -, -, heq⟩
    · rwa [heq, ← h.refillRate]
    · simp [heq, durationToSeconds]
  have hp := mul_nonneg (durationToSeconds_nonneg (sub_nonneg.2 hte)) h.rate_nonneg
  rw [reserve, hw.refillRate, max_mul_of_nonneg _ _ h.rate_nonneg, zero_mul,
    durationToSeconds_sub e t, add_mul]
  have hm : max 0 (durationToSeconds (e - t) * r + durationToSeconds
      (t - (b.refill t).lastRefill) * r) < durationToSeconds (e - t) * r + 1 :=
    max_lt (by linarith) (by linarith)
  linarith

end Within

end TokenBucket

/-- The limiter, with a bucket for each key that was asked for. -/
structure RateLimiter where
  enabled : Bool
  rateLimitPerSecond : Int
  buckets : String → Option TokenBucket

def newRateLimitingPolicy (enabled : Bool) (rateLimitPerSecond : Int) : RateLimiter :=
  ⟨enabled, rateLimitPerSecond, fun _ => none⟩

namespace RateLimiter

def store (p : RateLimiter) (key : String) (b : TokenBucket) : RateLimiter :=
  { p with buckets := Function.update p.buckets key (some b) }

/-- The bucket of a key; a new one is full. -/
def bucket (p : RateLimiter) (key : String) (t : Time) : TokenBucket :=
  (p.buckets key).getD ⟨p.rateLimitPerSecond, p.rateLimitPerSecond, p.rateLimitPerSecond, t⟩

def allowRequest (p : RateLimiter) (serviceID endpointPath : String) (requestTime : Time) :
    Bool × RateLimiter :=
  if p.enabled = false then (true, p)
  else
    let key := serviceID ++ ":" ++ endpointPath
    let bucket := (p.bucket key requestTime).refill requestTime
    if bucket.tokens > 0 then (true, p.store key { bucket with tokens := bucket.tokens - 1 })
    else (false, p.store key bucket)

def getRemainingQuota (p : RateLimiter) (serviceID endpointPath : String) (currentTime : Time) :
    Int × RateLimiter :=
  if p.enabled = false then (-1, p)
  else
    let key := serviceID ++ ":" ++ endpointPath
    match p.buckets key with
    | none => (p.rateLimitPerSecond, p)
    | some b => ((b.refill currentTime).tokens, p.store key (b.refill currentTime))

/-- A call of the limiter for some service and endpoint. -/
inductive Call
  | allowRequest (time : Time)
  | getRemainingQuota (time : Time)

def Call.time : Call → Time
  | allowRequest t => t
  | getRemainingQuota t => t

def Call.isRequest : Call → Bool
  | allowRequest _ => true
  | getRemainingQuota _ => false

section

variable (svc path : String)

/-- A call, with the time and the answer of a request. -/
def call (p : RateLimiter) : Call → List (Time × Bool) × RateLimiter
  | .allowRequest t =>
    let (allowed, p) := p.allowRequest svc path t
    ([(t, allowed)], p)
  | .getRemainingQuota t => ([], (p.getRemainingQuota svc path t).2)

/-- The answers to the requests in a sequence of calls, and the limiter after it. -/
def answers (p : RateLimiter) : List Call → List (Time × Bool) × RateLimiter
  | [] => ([], p)
  | c :: calls =>
    let (xs, p) := p.call svc path c
    let (ys, p) := answers p calls
    (xs ++ ys, p)

variable {p : RateLimiter}

@[simp] theorem bucket_store (key : String) (b : TokenBucket) (t : Time) :
    (p.store key b).bucket key t = b := by
  simp [store, RateLimiter.bucket]

variable {svc path} {key : String} (hkey : key = svc ++ ":" ++ path)
  (he : p.enabled = true)
include hkey he

theorem call_request (t : Time) : p.call svc path (.allowRequest t) =
    ([(t, decide (0 < ((p.bucket key t).refill t).tokens))],
      p.store key ((p.bucket key t).refill t).spend) := by
  subst hkey
  rw [call, allowRequest, if_neg (by simp [he]), TokenBucket.spend]
  split_ifs with ht <;> simp [ht]

theorem call_reading (t : Time) : p.call svc path (.getRemainingQuota t) = ([], p) ∨
    ∃ b, p.buckets key = some b ∧ p.call svc path (.getRemainingQuota t) =
      ([], p.store key (b.refill t)) := by
  rw [call, getRemainingQuota, if_neg (by simp [he])]
  dsimp only
  split <;> simp [*]

end

/-! ### The requests allowed within a window -/

/-- An enabled limiter whose bucket for the key respects the rate. -/
structure Sound (r : Int) (key : String) (p : RateLimiter) : Prop where
  enabled : p.enabled = true
  within : ∀ t, (p.bucket key t).Within r

/-- The request was allowed within the window. -/
def AllowedIn (a e : Time) (x : Time × Bool) : Bool :=
  decide (a ≤ x.1 ∧ x.1 ≤ e) && x.2

/-- No call lets the tokens of the bucket wrap around. -/
def Unwrapped (svc path : String) (p : RateLimiter) : List Call → Prop
  | [] => True
  | c :: calls => (p.bucket (svc ++ ":" ++ path) c.time).Unwrapped c.time ∧
    Unwrapped svc path (p.call svc path c).2 calls

section

variable {p : RateLimiter} {svc path key : String} {r : Int} {a e : Time}
  {c : Call} {calls : List Call} (hkey : key = svc ++ ":" ++ path)
include hkey

/-- A call refills the bucket and takes one token from it for a request that it allows, or it reads
the quota of a missing bucket. -/
theorem Sound.call_cases (hp : p.Sound r key) (hu : (p.bucket key c.time).Unwrapped c.time) :
    p.call svc path c = ([], p) ∨ ∃ xs b, p.call svc path c = (xs, p.store key b) ∧ b.Within r ∧
      (∀ x ∈ xs, x.1 = c.time) ∧
      ∀ e, b.reserve e + xs.countP (·.2) = ((p.bucket key c.time).refill c.time).reserve e := by
  cases c with
  | allowRequest t =>
    have hw := (hp.within t).refill hu
    refine .inr ⟨_, _, call_request hkey hp.enabled t, hw.spend, by simp [Call.time], fun e => ?_⟩
    unfold TokenBucket.spend TokenBucket.reserve Call.time
    split_ifs with ht <;> simp [ht]
    ring
  | getRemainingQuota t =>
    rcases call_reading hkey hp.enabled t with heq | ⟨b, hb, heq⟩
    · exact .inl heq
    · have hbu : p.bucket key t = b := by rw [RateLimiter.bucket, hb, Option.getD_some]
      refine .inr ⟨_, _, heq, hbu ▸ (hp.within t).refill hu, nofun, fun e => ?_⟩
      simp [Call.time, hbu]

theorem Sound.call (hp : p.Sound r key) (hu : (p.bucket key c.time).Unwrapped c.time) :
    (p.call svc path c).2.Sound r key := by
  rcases hp.call_cases hkey hu with heq | ⟨xs, b, heq, hw, -⟩
  · rwa [heq]
  · rw [heq]
    exact ⟨hp.enabled, fun t => by rwa [bucket_store]⟩

theorem Sound.answers (hp : p.Sound r key) (hu : p.Unwrapped svc path calls) :
    (p.answers svc path calls).2.Sound r key := by
  induction calls generalizing p with
  | nil => exact hp
  | cons c calls ih => exact ih (hp.call hkey (hkey ▸ hu.1)) hu.2

/-- The limiter allows no more requests until the end of a window than the reserve of the bucket
after its next refill. -/
theorem Sound.countP_le_of_reserve (hp : p.Sound r key) {v : ℚ} {now : Time} (hv : 0 ≤ v)
    (hu : p.Unwrapped svc path calls) (hres : ∀ t, now ≤ t → t ≤ e →
      (p.bucket key t).Unwrapped t → ((p.bucket key t).refill t).reserve e ≤ v)
    (hs : calls.Pairwise (·.time ≤ ·.time)) (hn : ∀ c ∈ calls, now ≤ c.time) :
    ((p.answers svc path calls).1.countP (AllowedIn a e) : ℚ) ≤ v := by
  induction calls generalizing p v now with
  | nil => exact_mod_cast hv
  | cons c calls ih =>
    obtain ⟨hle, hs⟩ := pairwise_cons.1 hs
    obtain ⟨hc, hn⟩ := forall_mem_cons.1 hn
    obtain ⟨huc, hu⟩ := hu
    rw [← hkey] at huc
    have hp' := hp.call hkey huc
    simp only [RateLimiter.answers, countP_append]
    rcases hp.call_cases hkey huc with heq | ⟨xs, b, heq, hw, hti, hsp⟩
    · rw [heq] at hu ⊢
      simpa using ih hp hv hu hres hs hn
    rw [heq] at hp' hu ⊢
    push_cast
    by_cases hl : e < c.time
    · have hz : xs.countP (AllowedIn a e) = 0 :=
        countP_eq_zero.2 fun x hx => by simp [AllowedIn, hti x hx, not_le.2 hl]
      rw [hz, Nat.cast_zero, zero_add]
      exact ih hp' hv hu (fun t ht hte => absurd (ht.trans hte) (not_le.2 hl)) hs hle
    · -- the bucket pays for the request that the call allows
      have hb := hres c.time hc (not_lt.1 hl) huc
      rw [← hsp e] at hb
      have hr := ih hp' (v := v - xs.countP (·.2)) (by linarith [hw.reserve_nonneg e]) hu
        (fun t _ hte hut => by
          rw [bucket_store] at hut ⊢
          linarith [hw.reserve_refill_le hut hte]) hs hle
      have hxs : (xs.countP (AllowedIn a e) : ℚ) ≤ xs.countP (·.2) := by
        exact_mod_cast countP_mono_left fun x _ hx => (Bool.and_eq_true_iff.1 hx).2
      linarith

theorem Sound.countP_le (hp : p.Sound r key) (hae : a ≤ e) (hu : p.Unwrapped svc path calls)
    (hs : calls.Pairwise (·.time ≤ ·.time)) :
    ((p.answers svc path calls).1.countP (AllowedIn a e) : ℚ) ≤
      r + r * durationToSeconds (e - a) + 1 := by
  have hr := (hp.within 0).rate_nonneg
  have hpos := durationToSeconds_nonneg (sub_nonneg.2 hae)
  induction calls generalizing p with
  | nil =>
    positivity
  | cons c calls ih =>
    obtain ⟨hle, hs'⟩ := pairwise_cons.1 hs
    have huc : (p.bucket key c.time).Unwrapped c.time := hkey ▸ hu.1
    by_cases hea : c.time < a
    · have hxs : (p.call svc path c).1.countP (AllowedIn a e) = 0 := by
        refine countP_eq_zero.2 fun x hx => ?_
        rcases hp.call_cases hkey huc with heq | ⟨xs, b, heq, -, ht, -⟩ <;> rw [heq] at hx
        · cases hx
        · simp [AllowedIn, ht x hx, not_le.2 hea]
      simp only [RateLimiter.answers, countP_append, hxs, zero_add]
      exact ih (hp.call hkey huc) hu.2 hs'
    · refine hp.countP_le_of_reserve hkey (by positivity) hu (fun t hat hte hut => ?_) hs
        (forall_mem_cons.2 ⟨not_lt.1 hea, fun d hd => (not_lt.1 hea).trans (hle d hd)⟩)
      have hlt := (hp.within t).reserve_refill_lt hut hte
      have hnn := mul_nonneg (durationToSeconds_nonneg (sub_nonneg.2 hat)) hr
      rw [durationToSeconds_sub e t a]
      linarith

end

/-- For every service and endpoint, a limiter of rate `r` whose tokens do not wrap around allows
within a window of time at most `r` requests, `r` for each second of the window, and one more; the
bucket holds between zero and `r` tokens after every call. -/
theorem allowed_in_window_le (r : Int) (hr : 0 ≤ r) (svc path : String)
    (calls : List Call) (hs : calls.Pairwise (·.time ≤ ·.time))
    (hu : (newRateLimitingPolicy true r).Unwrapped svc path calls) (a e : Time) (hae : a ≤ e) :
    (((newRateLimitingPolicy true r).answers svc path calls).1.countP
        (AllowedIn a e) : ℚ) ≤ r + r * durationToSeconds (e - a) + 1 ∧
      ∀ b, ((newRateLimitingPolicy true r).answers svc path calls).2.buckets
        (svc ++ ":" ++ path) = some b → 0 ≤ b.tokens ∧ b.tokens ≤ r := by
  have hp : (newRateLimitingPolicy true r).Sound r (svc ++ ":" ++ path) :=
    ⟨rfl, fun t => ⟨rfl, rfl, hr, le_rfl⟩⟩
  refine ⟨hp.countP_le rfl hae hu hs, fun b hb => ?_⟩
  have hw := (hp.answers rfl hu).within 0
  rw [RateLimiter.bucket, hb, Option.getD_some] at hw
  exact ⟨hw.tokens_nonneg, hw.tokens_le⟩

/-- Four requests at a rate of two, half a second apart. -/
def halfSeconds : List Call :=
  [.allowRequest 0, .allowRequest 500000000, .allowRequest second, .allowRequest 1500000000]

theorem allowed_in_window_le_halfSeconds :
    (((newRateLimitingPolicy true 2).answers "a" "/" halfSeconds).1.countP
      (AllowedIn 0 second) : ℚ) ≤ (2 : Int) + (2 : Int) * durationToSeconds (second - 0) + 1 :=
  (allowed_in_window_le 2 (by decide) "a" "/" halfSeconds (by decide)
    (by simp only [halfSeconds, Unwrapped, TokenBucket.Unwrapped]; decide +kernel) 0 second
    (by decide)).1

/-- After one second, the tokens of a bucket with the rate `5 * 10 ^ 18` wrap around. -/
theorem tokens_wrap_around :
    ((newRateLimitingPolicy true (5 * 10 ^ 18)).answers "a" "/"
      [.allowRequest 0, .allowRequest second]).2.buckets "a:/" =
        some ⟨5 * 10 ^ 18, 10 ^ 19 - 1 - 2 ^ 64, 5 * 10 ^ 18, second⟩ := by
  decide +kernel

/-! ### Readings of the quota -/

def nextRequest : List Call → Option Time
  | [] => none
  | .allowRequest t :: _ => some t
  | .getRemainingQuota _ :: calls => nextRequest calls

/-- Every reading of the quota finds less than one token due, or the next request comes at the same
time. -/
def Harmless (svc path : String) (p : RateLimiter) : List Call → Prop
  | [] => True
  | .allowRequest t :: calls =>
    Harmless svc path (p.call svc path (.allowRequest t)).2 calls
  | .getRemainingQuota t :: calls =>
    ((∀ b, p.buckets (svc ++ ":" ++ path) = some b → b.due t < 1) ∨
      ∀ t', nextRequest calls = some t' → t' = t) ∧
    Harmless svc path (p.call svc path (.getRemainingQuota t)).2 calls

/-- If the buckets of two limiters are the same once the next request has refilled them, harmless
readings of one of them do not change its answers. -/
theorem answers_eq_of_refill {svc path key : String} (hkey : key = svc ++ ":" ++ path)
    {p p' : RateLimiter} {calls : List Call} (he : p.enabled = true) (he' : p'.enabled = true)
    (hh : p.Harmless svc path calls) (hr : ∀ t, nextRequest calls = some t →
      (p.bucket key t).refill t = (p'.bucket key t).refill t) :
    (p.answers svc path calls).1 = (p'.answers svc path (calls.filter Call.isRequest)).1 := by
  induction calls generalizing p p' with
  | nil => rfl
  | cons c calls ih =>
    cases c with
    | allowRequest t =>
      have hca := call_request hkey he t
      rw [hr t rfl] at hca
      rw [Harmless, hca] at hh
      rw [filter_cons_of_pos rfl]
      simp only [RateLimiter.answers, hca, call_request hkey he' t]
      exact congrArg _ (ih he he' hh fun t' _ => by rw [bucket_store, bucket_store])
    | getRemainingQuota t =>
      obtain ⟨hc, hh⟩ := hh
      simp only [RateLimiter.answers]
      rcases call_reading hkey he t with heq | ⟨b, hb, heq⟩ <;> rw [heq] at hh ⊢
      · exact ih he he' hh hr
      · refine ih he he' hh fun t' ht' => ?_
        have hold := hr t' ht'
        rw [RateLimiter.bucket, hb, Option.getD_some] at hold
        rw [bucket_store, ← hold]
        rcases hc with hc | hc
        · rw [b.refill_of_due_lt_one (hc b (hkey ▸ hb))]
        · rw [hc t' ht', b.refill_refill]

/-- Harmless readings of the quota do not change the answers to the requests. -/
theorem answers_without_readings (p : RateLimiter) (he : p.enabled = true) (svc path : String)
    (calls : List Call) (hh : p.Harmless svc path calls) :
    (p.answers svc path calls).1 = (p.answers svc path (calls.filter Call.isRequest)).1 :=
  answers_eq_of_refill rfl he he hh fun _ _ => rfl

/-- A reading that finds less than one token due between two requests. -/
theorem answers_without_readings_between :
    ((newRateLimitingPolicy true 2).answers "a" "/" [.allowRequest 0, .allowRequest 0,
        .getRemainingQuota 400000000, .allowRequest 500000000, .allowRequest 500000000]).1 =
      ((newRateLimitingPolicy true 2).answers "a" "/" [.allowRequest 0, .allowRequest 0,
        .allowRequest 500000000, .allowRequest 500000000]).1 := by
  refine answers_without_readings (newRateLimitingPolicy true 2) rfl "a" "/" [.allowRequest 0,
    .allowRequest 0, .getRemainingQuota 400000000, .allowRequest 500000000,
    .allowRequest 500000000] ⟨.inl fun b hb => ?_, trivial⟩
  have he : some b = some ⟨2, 0, 2, 0⟩ := hb.symm.trans (by decide +kernel)
  rw [Option.some.inj he]
  decide +kernel

/-- Two requests empty a bucket of rate two. A reading after 0.9 s adds one token for the 1.8 that
are due and moves the refill clock, so the second of two requests after 1 s is rejected. -/
theorem reading_changes_answer :
    ((newRateLimitingPolicy true 2).answers "a" "/" [.allowRequest 0, .allowRequest 0,
        .getRemainingQuota 900000000, .allowRequest second, .allowRequest second]).1 ≠
      ((newRateLimitingPolicy true 2).answers "a" "/" [.allowRequest 0, .allowRequest 0,
        .allowRequest second, .allowRequest second]).1 := by
  decide +kernel

end RateLimiter

end SimCore.Policy
