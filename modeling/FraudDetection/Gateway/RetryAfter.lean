import Mathlib.Tactic.NormNum
import FraudDetection.Gateway.RateLimit

/-!
# The promise of `Retry-After`

The delay is computed as `window - (now - window_start)`, which is zero whatever the calls were, and
raised to one. The rejected call itself is in the window of the next one, with all the calls that
are younger than the window.
-/

namespace FraudDetection.Gateway

open Python Store

/-! ## The delay -/

/-- Every rejection promises that one second is enough. -/
theorem judge_of_gt {limit window : ℤ} {now : ℚ} {count : ℕ} (h : (count : ℤ) > limit) :
    judge limit window now count = ⟨false, 0, 1⟩ := by
  have hzero : (window : ℚ) - (now - (now - window)) = 0 := by linarith
  unfold judge
  rw [if_pos h, hzero]
  rfl

section Delay

variable {lib : NumberLib} {call : Call} {ks : RateStore}

/-- A rejected call has been counted. -/
theorem answered_of_rejected (h : (checkRateLimit lib call ks).1.allowed = false) :
    call.pipeline = some .answered ∧ (checkRateLimit lib call ks).1 = ⟨false, 0, 1⟩ := by
  rw [fst_checkRateLimit] at h ⊢
  split at h
  · rename_i hanswered
    rw [judge_allowed, decide_eq_false_iff_not, not_le] at h
    rw [if_pos hanswered, judge_of_gt h]
    exact ⟨hanswered, rfl⟩
  · cases h

end Delay

/-! ## The response -/

/-- A response: its status, its body and its headers. -/
structure Response where
  statusCode : ℕ
  content : Json
  headers : List (String × String)

/-- `response.headers[name] = value` -/
def Response.setHeader (response : Response) (name value : String) : Response :=
  { response with headers := response.headers.filter (fun h => h.1 ≠ name) ++ [(name, value)] }

/-- `RateLimitMiddleware.dispatch`, for a request whose client has been identified. Without a
limiter there is no rate limiting; `callNext` is what the application answers. -/
def dispatch (lib : NumberLib) (rateLimitPerMinute : ℤ) (rateLimiter : Option (Option Transaction))
    (path clientId : String) (now : ℚ) (hnow : 0 ≤ now) (callNext : Response) (ks : RateStore) :
    Response × RateStore :=
  if path = "/health" ∨ path = "/metrics" then (callNext, ks)
  else match rateLimiter with
    | none => (callNext, ks)
    | some pipeline =>
        let (verdict, ks) := checkRateLimit lib
          ⟨clientId, rateLimitPerMinute, 60, now, pipeline, hnow⟩ ks
        if verdict.allowed then
          ((callNext.setHeader "X-RateLimit-Limit" (toString rateLimitPerMinute)).setHeader
            "X-RateLimit-Remaining" (toString verdict.remaining), ks)
        else
          ({ statusCode := 429
             content := .dict [("detail", .str "Rate limit exceeded. Please try again later."),
               ("retry_after", .int verdict.retryAfter)]
             headers := [("Retry-After", toString verdict.retryAfter),
               ("X-RateLimit-Limit", toString rateLimitPerMinute),
               ("X-RateLimit-Remaining", "0")] }, ks)

/-- A response is the application's own up to the two headers, or tells the client to come back
after one second. -/
theorem dispatch_cases (lib : NumberLib) (rateLimitPerMinute : ℤ)
    (rateLimiter : Option (Option Transaction)) (path clientId : String) (now : ℚ) (hnow : 0 ≤ now)
    (callNext : Response) (ks : RateStore) :
    let response :=
      (dispatch lib rateLimitPerMinute rateLimiter path clientId now hnow callNext ks).1
    (response.statusCode = callNext.statusCode ∧ response.content = callNext.content) ∨
      (response.statusCode = 429 ∧ ("Retry-After", "1") ∈ response.headers) := by
  intro response
  by_cases hpath : path = "/health" ∨ path = "/metrics"
  · left
    simp [response, dispatch, hpath]
  · cases rateLimiter with
    | none =>
      left
      simp [response, dispatch, hpath]
    | some pipeline =>
      cases hallowed : (checkRateLimit lib
          ⟨clientId, rateLimitPerMinute, 60, now, pipeline, hnow⟩ ks).1.allowed with
      | true =>
        left
        simp [response, dispatch, hpath, hallowed, Response.setHeader]
      | false =>
        right
        obtain ⟨-, hverdict⟩ := answered_of_rejected hallowed
        simp [response, dispatch, hpath, hverdict]
        rfl

/-! ## The next call -/

section Next

variable {client : String} {a a' s : ℚ} {calls between : List Call} {call retry : Call}

/-- A later start of the window leaves fewer times in it. -/
theorem length_timesIn_le (client : String) (s : ℚ) (calls : List Call) (h : a ≤ a') :
    (timesIn client a' s calls).length ≤ (timesIn client a s calls).length := by
  refine (nodup_timesIn.subperm ?_).length_le
  intro now hnow
  obtain ⟨c, hc, hclient, hrec, hnow, hopen, hle⟩ := mem_timesIn.mp hnow
  exact mem_timesIn.mpr ⟨c, hc, hclient, hrec, hnow, h.trans_lt hopen, hle⟩

/-- Calls of other clients have no times in the window. -/
theorem timesIn_others (hothers : ∀ c ∈ between, c.clientId ≠ client) :
    timesIn client a s (calls ++ between) = timesIn client a s calls := by
  have hnone : between.filter (fun c => c.clientId = client ∧ c.recorded = true ∧ a < c.now ∧
      c.now ≤ s) = [] := by
    rw [List.filter_eq_nil_iff]
    intro c hc
    simp [hothers c hc]
  unfold timesIn
  rw [List.filter_append, hnone, List.append_nil]

/-- A call after all others of its client adds its own time to the window. -/
theorem length_timesIn_snoc (hclient : call.clientId = client) (hrec : call.recorded = true)
    (hopen : a < call.now) (hs : s < call.now)
    (hbefore : ∀ c ∈ calls, c.clientId = client → c.now ≤ s) :
    (timesIn client a call.now (calls ++ [call])).length =
      (timesIn client a s calls).length + 1 := by
  have hnew : call.now ∉ timesIn client a s calls := by
    intro hmem
    obtain ⟨-, -, -, -, -, -, hle⟩ := mem_timesIn.mp hmem
    exact absurd hle (not_le.mpr hs)
  have hnodup : (call.now :: timesIn client a s calls).Nodup :=
    List.nodup_cons.mpr ⟨hnew, nodup_timesIn⟩
  rw [((List.perm_ext_iff_of_nodup nodup_timesIn hnodup).mpr ?_).length_eq, List.length_cons]
  intro now
  rw [mem_timesIn, List.mem_cons, mem_timesIn]
  constructor
  · rintro ⟨c, hc, hown, hrec, rfl, hopen, -⟩
    rcases List.mem_append.mp hc with hc | hc
    · exact Or.inr ⟨c, hc, hown, hrec, rfl, hopen, hbefore c hc hown⟩
    · rw [List.mem_singleton.mp hc]
      exact Or.inl rfl
  · rintro (rfl | ⟨c, hc, hown, hrec, rfl, hopen, hle⟩)
    · exact ⟨call, by simp, hclient, hrec, rfl, hopen, le_rfl⟩
    · exact ⟨c, List.mem_append_left _ hc, hown, hrec, rfl, hopen, hle.trans hs.le⟩

theorem now_le_last (htime : (calls ++ [call]).Pairwise fun a b => a.now ≤ b.now) :
    ∀ c ∈ calls ++ [call], c.now ≤ call.now := by
  intro c hc
  rcases List.mem_append.mp hc with hc | hc
  · exact (List.pairwise_append.mp htime).2.2 c hc call (by simp)
  · rw [List.mem_singleton.mp hc]

end Next

/-! ## When the promise is kept -/

/-- `retry` is the call that the client makes again. -/
structure Again (call retry : Call) : Prop where
  clientId : retry.clientId = call.clientId
  limit : retry.limit = call.limit
  window : retry.window = call.window

/-- The same call a second later. -/
def Call.secondLater (call : Call) : Call :=
  { call with
    now := call.now + 1
    now_nonneg := add_nonneg call.now_nonneg zero_le_one }

section Retries

variable {lib : NumberLib} {before between : List Call} {call retry : Call} {ks : RateStore}

/-- What the next call of the client counts if it is answered: the times of its calls that are still
in the window, and its own. -/
theorem retry_count (hpos : 1 ≤ call.window) (hfresh : ks (rateKey call.clientId) = none)
    (hwindow : ∀ c ∈ before, c.clientId = call.clientId → c.window = call.window)
    (hle : ∀ c ∈ before ++ [call], c.now ≤ call.now)
    (hothers : ∀ c ∈ between, c.clientId ≠ call.clientId) (hagain : Again call retry)
    (htime : (before ++ [call] ++ between ++ [retry]).Pairwise fun a b => a.now ≤ b.now)
    (hlater : call.now < retry.now) (hanswered : retry.pipeline = some .answered) :
    (runPipeline lib retry (stateAfter lib (before ++ [call] ++ between) ks)).1 =
      (timesIn call.clientId (retry.now - call.window) call.now (before ++ [call])).length + 1 := by
  have hcast : (1 : ℚ) ≤ call.window := by exact_mod_cast hpos
  have hrecorded : retry.recorded = true := by
    unfold Call.recorded
    rw [hanswered]
  have hwindow' : ∀ c ∈ before ++ [call] ++ between, c.clientId = retry.clientId →
      c.window = retry.window := by
    intro c hc hclient
    rw [hagain.clientId] at hclient
    rw [hagain.window]
    rcases List.mem_append.mp hc with hc | hc
    · rcases List.mem_append.mp hc with hc | hc
      · exact hwindow c hc hclient
      · rw [List.mem_singleton.mp hc]
    · exact absurd hclient (hothers c hc)
  have hbefore : ∀ c ∈ before ++ [call] ++ between, c.clientId = call.clientId →
      c.now ≤ call.now := by
    intro c hc hclient
    rcases List.mem_append.mp hc with hc | hc
    · exact hle c hc
    · exact absurd hclient (hothers c hc)
  rw [count_eq (hagain.clientId ▸ hfresh) htime hwindow' (hagain.window ▸ hpos) hrecorded,
    hagain.clientId, hagain.window,
    length_timesIn_snoc hagain.clientId hrecorded (by linarith) hlater hbefore,
    timesIn_others hothers]

/-- The client can come back a second later. -/
theorem secondLater_ordered (htime : (before ++ [call]).Pairwise fun a b => a.now ≤ b.now) :
    (before ++ [call] ++ ([] : List Call) ++ [call.secondLater]).Pairwise
      fun a b => a.now ≤ b.now := by
  rw [List.append_nil, List.pairwise_append]
  refine ⟨htime, List.pairwise_singleton _ _, ?_⟩
  intro c hc r hr
  rw [List.mem_singleton.mp hr]
  exact (now_le_last htime c hc).trans (le_add_of_nonneg_right zero_le_one)

end Retries

/-- A client that waits as long as it was told and makes no call in between is let through, whenever
it comes back, exactly if a second after its rejection fewer than `limit` different times of its
calls are in the window. -/
theorem retryAfter_honest_iff (lib : NumberLib) (before : List Call) (call : Call) (ks : RateStore)
    (hpos : 1 ≤ call.window) (hfresh : ks (rateKey call.clientId) = none)
    (htime : (before ++ [call]).Pairwise fun a b => a.now ≤ b.now)
    (hwindow : ∀ c ∈ before, c.clientId = call.clientId → c.window = call.window)
    (hrejected : (checkRateLimit lib call (stateAfter lib before ks)).1.allowed = false) :
    (∀ between retry, (∀ c ∈ between, c.clientId ≠ call.clientId) → Again call retry →
        (before ++ [call] ++ between ++ [retry]).Pairwise (fun a b => a.now ≤ b.now) →
        call.now + (checkRateLimit lib call (stateAfter lib before ks)).1.retryAfter ≤ retry.now →
        (checkRateLimit lib retry
          (stateAfter lib (before ++ [call] ++ between) ks)).1.allowed = true) ↔
      ((timesIn call.clientId (call.now + 1 - call.window) call.now (before ++ [call])).length : ℤ) <
        call.limit := by
  obtain ⟨hanswered, hverdict⟩ := answered_of_rejected hrejected
  have hle := now_le_last htime
  rw [hverdict]
  constructor
  · intro hhonest
    have htime' := secondLater_ordered htime
    have hagain : Again call call.secondLater := ⟨rfl, rfl, rfl⟩
    have hnone : ∀ c ∈ ([] : List Call), c.clientId ≠ call.clientId :=
      fun c hc => absurd hc List.not_mem_nil
    have hlater : call.now < call.secondLater.now := lt_add_one call.now
    have hallowed := hhonest [] call.secondLater hnone hagain htime' (by simp [Call.secondLater])
    rw [fst_checkRateLimit, if_pos (by exact hanswered), judge_allowed, decide_eq_true_eq,
      retry_count hpos hfresh hwindow hle hnone hagain htime' hlater hanswered] at hallowed
    have hlimit : call.secondLater.limit = call.limit := rfl
    have hnow : call.secondLater.now = call.now + 1 := rfl
    rw [hlimit, hnow] at hallowed
    push_cast at hallowed
    omega
  · intro hfew between retry hothers hagain htime' hwait
    have hwait' : call.now + 1 ≤ retry.now := by simpa using hwait
    rw [fst_checkRateLimit]
    split
    · rename_i hanswered'
      rw [judge_allowed, decide_eq_true_eq,
        retry_count hpos hfresh hwindow hle hothers hagain htime' (by linarith) hanswered',
        hagain.limit]
      have hfewer := length_timesIn_le call.clientId call.now (before ++ [call])
        (by linarith : call.now + 1 - call.window ≤ retry.now - call.window)
      push_cast
      omega
    · rfl

/-! ### One call a minute, and two -/

/-- The client is rejected at second 20 and told to wait for one second, and it is rejected at
second 21 again: its call at second 10 stays in the window until second 70. -/
theorem retry_rejected :
    (checkRateLimit compactNumbers (singleCall 20)
        (stateAfter compactNumbers [singleCall 10] fun _ => none)).1 = ⟨false, 0, 1⟩ ∧
    (checkRateLimit compactNumbers (singleCall 21)
        (stateAfter compactNumbers [singleCall 10, singleCall 20] fun _ => none)).1 =
      ⟨false, 0, 1⟩ := by
  decide +kernel

theorem half_seconds_nonneg (n : ℕ) : (0 : ℚ) ≤ n / 2 := div_nonneg n.cast_nonneg zero_le_two

/-- A call of a client that may make two calls a minute. -/
def pairCall (halfSeconds : ℕ) : Call where
  clientId := "user:7"
  limit := 2
  window := 60
  now := halfSeconds / 2
  pipeline := some .answered
  now_nonneg := half_seconds_nonneg halfSeconds

/-- Both older calls leave the window in the second that the client waits for. -/
theorem retryAfter_honest_iff_pair :
    (checkRateLimit compactNumbers (pairCall 142) (stateAfter compactNumbers
      ([pairCall 21, pairCall 22] ++ [pairCall 140] ++ []) fun _ => none)).1.allowed = true := by
  have hwindow : ∀ c ∈ [pairCall 21, pairCall 22], c.clientId = "user:7" → c.window = 60 := by
    intro c hc _
    simp only [List.mem_cons, List.not_mem_nil, or_false] at hc
    rcases hc with rfl | rfl <;> rfl
  exact (retryAfter_honest_iff compactNumbers [pairCall 21, pairCall 22] (pairCall 140)
      (fun _ => none) (by decide) rfl (by decide +kernel) hwindow (by decide +kernel)).mpr
    (by decide +kernel) [] (pairCall 142) (fun c hc => absurd hc List.not_mem_nil) ⟨rfl, rfl, rfl⟩
    (by decide +kernel) (by decide +kernel)

end FraudDetection.Gateway
