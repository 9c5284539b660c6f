import FraudDetection.Kafka.Consumer

/-!
# `FraudKafkaProducer.publish_with_retry`

Publishing with exponential backoff: what a run does for every sequence of publish outcomes, and
when it keeps the contract of its docstring.
-/

namespace FraudDetection.Kafka

open Async Python

/-- `except (KafkaError, OSError)` -/
def isTransient (x : Exn) : Bool := x.cls == .kafkaError || x.cls == .osError

/-- `raise last_exc`; to raise `None` is a `TypeError`. -/
def raiseLast : Option Exn → Async Unit
  | some exc => .raise exc
  | none => .raise ⟨.typeError, "exceptions must derive from BaseException"⟩

namespace FraudKafkaProducer

variable (py : PyLib) (p : FraudKafkaProducer) (topic : String) (key : Json)
  (eventEnvelope : EventEnvelope) (maxRetries : ℕ)

/-- One attempt: the transient exception it was answered with, if any. Others go through. -/
def tryPublish : Async (Option Exn) :=
  (do
    p.publish py topic key eventEnvelope
    return none : Async (Option Exn)).tryExcept isTransient fun exc => pure (some exc)

/-- The loop of `publish_with_retry` with `remaining` attempts left. -/
def publishAttempts : ℕ → Option Exn → Async Unit
  | 0, lastExc => raiseLast lastExc
  | remaining + 1, _ => do
      match ← tryPublish py p topic key eventEnvelope with
      | none => return ()
      | some exc =>
          -- the pause is inside the `except` clause: what it raises is not caught
          let backoff ← Prog.lift (backoffSeconds (maxRetries - remaining))
          await (.sleep backoff)
          publishAttempts remaining (some exc)

/-- Publish with exponential-backoff retry. -/
def publishWithRetry : Async Unit :=
  publishAttempts py p topic key eventEnvelope maxRetries maxRetries none

end FraudKafkaProducer

/-! ## The contract -/

/-- The outcomes of the publishes in order (`none` for success): the first `k` failed with a
`KafkaError` or an `OSError`. -/
def FailedBefore (outcome : ℕ → Option Exn) (k : ℕ) : Prop :=
  ∀ j < k, ∃ x, outcome j = some x ∧ isTransient x = true

/-- The retry contract, for the outcomes of the publishes, the result of the call and the number of
attempts made. Attempt number `k + 1` has the outcome `outcome k`. -/
structure RetryContract (outcome : ℕ → Option Exn) (maxRetries : ℕ) (result : Except Exn Unit)
    (attempts : ℕ) : Prop where
  returns : result = .ok () ↔ ∃ k < maxRetries, FailedBefore outcome k ∧ outcome k = none
  succeeded : ∀ k < maxRetries, FailedBefore outcome k → outcome k = none → attempts = k + 1
  propagates : ∀ k < maxRetries, FailedBefore outcome k → ∀ x, outcome k = some x →
    isTransient x = false → result = .error x ∧ attempts = k + 1
  exhausted : FailedBefore outcome maxRetries → attempts = maxRetries ∧
    ∃ x, isTransient x = true ∧ outcome (maxRetries - 1) = some x ∧ result = .error x

/-- The attempt with this outcome is not followed by another one. -/
def Stops (outcome : ℕ → Option Exn) (k : ℕ) : Prop :=
  ∀ x, outcome k = some x → isTransient x = false

section Contract

variable {outcome : ℕ → Option Exn} {maxRetries k : ℕ}

theorem FailedBefore.mono {n : ℕ} (h : FailedBefore outcome n) (hk : k ≤ n) :
    FailedBefore outcome k :=
  fun j hj => h j (by omega)

theorem FailedBefore.not_stops {j : ℕ} (h : FailedBefore outcome k) (hj : j < k) :
    ¬ Stops outcome j := by
  intro hstop
  obtain ⟨x, hx, htransient⟩ := h j hj
  rw [hstop x hx] at htransient
  cases htransient

theorem stops_of_none (h : outcome k = none) : Stops outcome k := by
  intro x hx
  rw [h] at hx
  cases hx

theorem stops_of_not_transient {x : Exn} (h : outcome k = some x) (hx : isTransient x = false) :
    Stops outcome k := by
  intro y hy
  rw [h] at hy
  cases hy
  exact hx

/-- Either all of the first `n` attempts fail, or a first one of them ends the loop. -/
theorem failedBefore_or_stops (outcome : ℕ → Option Exn) (n : ℕ) :
    FailedBefore outcome n ∨ ∃ k < n, FailedBefore outcome k ∧ Stops outcome k := by
  induction n with
  | zero => exact Or.inl fun j hj => absurd hj (Nat.not_lt_zero j)
  | succ n ih =>
      rcases ih with hfail | ⟨k, hk, hfail, hstop⟩
      · by_cases hstop : Stops outcome n
        · exact Or.inr ⟨n, Nat.lt_succ_self n, hfail, hstop⟩
        · left
          simp only [Stops, not_forall, Bool.not_eq_false] at hstop
          obtain ⟨x, hx, htransient⟩ := hstop
          intro j hj
          by_cases hjn : j = n
          · subst hjn
            exact ⟨x, hx, htransient⟩
          · exact hfail j (by omega)
      · exact Or.inr ⟨k, by omega, hfail, hstop⟩

/-- The attempt that ends the loop is unique. -/
theorem stop_unique {j : ℕ} (hk : FailedBefore outcome k) (hsk : Stops outcome k)
    (hj : FailedBefore outcome j) (hsj : Stops outcome j) : j = k := by
  by_contra hne
  rcases Nat.lt_or_gt_of_ne hne with hlt | hgt
  · exact hk.not_stops hlt hsj
  · exact hj.not_stops hgt hsk

/-- The contract at an attempt that ends the loop: its outcome is the result. -/
theorem RetryContract.of_stops (hk : k < maxRetries) (hfail : FailedBefore outcome k)
    (hstop : Stops outcome k) :
    RetryContract outcome maxRetries
      (match outcome k with
        | none => .ok ()
        | some x => .error x) (k + 1) := by
  have heq : ∀ j, FailedBefore outcome j → Stops outcome j → j = k :=
    fun j hj hsj => stop_unique hfail hstop hj hsj
  refine ⟨⟨?_, ?_⟩, ?_, ?_, ?_⟩
  · intro hresult
    cases hout : outcome k with
    | none => exact ⟨k, hk, hfail, hout⟩
    | some x => simp [hout] at hresult
  · rintro ⟨j, -, hj, hnone⟩
    rw [heq j hj (stops_of_none hnone)] at hnone
    rw [hnone]
  · intro j _ hj hnone
    rw [heq j hj (stops_of_none hnone)]
  · intro j _ hj x hx htransient
    obtain rfl := heq j hj (stops_of_not_transient hx htransient)
    rw [hx]
    exact ⟨rfl, rfl⟩
  · intro hall
    exact absurd hstop (hall.not_stops hk)

/-- The contract when all attempts fail: the last exception is the result. -/
theorem RetryContract.of_failedBefore (hpos : 0 < maxRetries)
    (hfail : FailedBefore outcome maxRetries) {x : Exn} (hx : outcome (maxRetries - 1) = some x) :
    RetryContract outcome maxRetries (.error x) maxRetries := by
  refine ⟨⟨?_, ?_⟩, ?_, ?_, ?_⟩
  · intro hresult
    cases hresult
  · rintro ⟨j, hj, -, hnone⟩
    exact absurd (stops_of_none hnone) (hfail.not_stops hj)
  · intro j hj _ hnone
    exact absurd (stops_of_none hnone) (hfail.not_stops hj)
  · intro j hj _ y hy htransient
    exact absurd (stops_of_not_transient hy htransient) (hfail.not_stops hj)
  · intro _
    obtain ⟨y, hy, htransient⟩ := hfail (maxRetries - 1) (by omega)
    rw [hx] at hy
    cases hy
    exact ⟨rfl, x, htransient, hx, rfl⟩

/-- A call that keeps the contract and has failed `attempts` times in a row has used up its
attempts, and raises the transient exception of the last one. -/
theorem RetryContract.transient_of_failedBefore {result : Except Exn Unit} {attempts : ℕ}
    (h : RetryContract outcome maxRetries result attempts) (hfail : FailedBefore outcome attempts) :
    ∃ x, isTransient x = true ∧ result = .error x := by
  rcases failedBefore_or_stops outcome maxRetries with hall | ⟨k, hk, hkfail, hstop⟩
  · obtain ⟨-, x, hx, -, hresult⟩ := h.exhausted hall
    exact ⟨x, hx, hresult⟩
  · have hattempts : attempts = k + 1 := by
      cases hout : outcome k with
      | none => exact h.succeeded k hk hkfail hout
      | some x => exact (h.propagates k hk hkfail x hout (hstop x hout)).2
    exact absurd hstop (hfail.not_stops (by omega))

end Contract

/-! ## Runs -/

section Runs

open FraudKafkaProducer

variable {py : PyLib} {topic : String} {key : Json} {eventEnvelope : EventEnvelope} {env : Env}
  {w : World}

/-- The world after one more publish. -/
def World.published (py : PyLib) (topic : String) (key : Json) (eventEnvelope : EventEnvelope)
    (env : Env) (w : World) : World :=
  (perform env (.sendAndWait topic key (eventEnvelope.toJson py)) w).2

theorem World.published_sends :
    (w.published py topic key eventEnvelope env).1.sends = w.1.sends + 1 := by
  rw [World.published, perform_counters]
  rfl

/-- The world after one more publish, and the pause that follows it. -/
def World.paused (py : PyLib) (topic : String) (key : Json) (eventEnvelope : EventEnvelope)
    (env : Env) (w : World) : World :=
  (w.published py topic key eventEnvelope env).tick

/-- The world after `k` publishes, each followed by a pause. -/
def World.pausedTimes (py : PyLib) (topic : String) (key : Json) (eventEnvelope : EventEnvelope)
    (env : Env) : ℕ → World → World
  | 0, w => w
  | k + 1, w => (World.pausedTimes py topic key eventEnvelope env k w).paused
      py topic key eventEnvelope env

theorem World.pausedTimes_sends (k : ℕ) :
    (World.pausedTimes py topic key eventEnvelope env k w).1.sends = w.1.sends + k := by
  induction k with
  | zero => rfl
  | succ k ih =>
      rw [World.pausedTimes, World.paused, World.tick_sends, World.published_sends, ih]
      omega

/-- What an attempt of a started producer answers is decided by the outcome of its send. -/
theorem leads_tryPublish {P : Except Exn (Option Exn) → World → Prop} :
    Prog.Leads (perform env) (tryPublish py ⟨true⟩ topic key eventEnvelope) w P ↔
      P (match env.sent w.1.sends key with
        | none => .ok none
        | some x => if isTransient x then .ok (some x) else .error x)
        (w.published py topic key eventEnvelope env) := by
  unfold tryPublish publish World.published
  simp only [Bool.not_true, Bool.false_eq_true, if_false, Prog.leads_tryExcept, Prog.leads_bind,
    Prog.leads_await, perform]
  cases hsend : env.sent w.1.sends key with
  | none => simp
  | some x =>
      by_cases hk : x.isKafkaError = true
      · by_cases ht : isTransient x = true <;> simp [hk, ht]
      · by_cases ht : isTransient x = true <;> simp [hk, ht]

variable {maxRetries : ℕ} {P : Except Exn Unit → World → Prop}

/-- An attempt that is not answered with a transient exception ends the loop. -/
theorem leads_publishAttempts_stop {remaining : ℕ} {lastExc : Option Exn}
    (hstop : ∀ x, env.sent w.1.sends key = some x → isTransient x = false) :
    Prog.Leads (perform env)
        (publishAttempts py ⟨true⟩ topic key eventEnvelope maxRetries (remaining + 1) lastExc) w P ↔
      P (match env.sent w.1.sends key with
        | none => .ok ()
        | some x => .error x) (w.published py topic key eventEnvelope env) := by
  rw [publishAttempts, Prog.leads_bind, leads_tryPublish]
  cases hsend : env.sent w.1.sends key with
  | none => simp
  | some x => simp [hstop x hsend]

/-- A transient exception is followed by a pause and the next attempt, unless the backoff
overflows. -/
theorem leads_publishAttempts_fail (hsleep : ∀ n t, env.fault n (.sleep t) = none)
    {remaining : ℕ} {lastExc : Option Exn} {x : Exn} (hsend : env.sent w.1.sends key = some x)
    (hx : isTransient x = true) :
    Prog.Leads (perform env)
        (publishAttempts py ⟨true⟩ topic key eventEnvelope maxRetries (remaining + 1) lastExc) w P ↔
      match backoffSeconds (maxRetries - remaining) with
      | .ok _ => Prog.Leads (perform env)
          (publishAttempts py ⟨true⟩ topic key eventEnvelope maxRetries remaining (some x))
          (w.paused py topic key eventEnvelope env) P
      | .error y => P (.error y) (w.published py topic key eventEnvelope env) := by
  rw [publishAttempts, Prog.leads_bind, leads_tryPublish]
  simp only [hsend, hx, if_true, Prog.leads_bind, Prog.leads_lift]
  cases backoffSeconds (maxRetries - remaining) with
  | error y => exact Iff.rfl
  | ok backoff =>
      simp only [Prog.leads_await, perform, hsleep, orFault_none]
      exact Iff.rfl

/-- The exception that `k` failed attempts from `w` have saved in `last_exc`. -/
def lastFailure (env : Env) (w : World) (key : Json) : ℕ → Option Exn
  | 0 => none
  | k + 1 => env.sent (w.1.sends + k) key

/-- As long as the attempts fail with transient exceptions and the backoff does not overflow, the
loop goes on. -/
theorem leads_publishAttempts_go (hsleep : ∀ n t, env.fault n (.sleep t) = none) {k : ℕ}
    (hk : k ≤ maxRetries) (hover : k ≤ 1024)
    (hfail : FailedBefore (fun j => env.sent (w.1.sends + j) key) k) :
    Prog.Leads (perform env)
        (publishWithRetry py ⟨true⟩ topic key eventEnvelope maxRetries) w P ↔
      Prog.Leads (perform env)
        (publishAttempts py ⟨true⟩ topic key eventEnvelope maxRetries (maxRetries - k)
          (lastFailure env w key k))
        (World.pausedTimes py topic key eventEnvelope env k w) P := by
  induction k with
  | zero => exact Iff.rfl
  | succ k ih =>
      rw [ih (by omega) (by omega) fun j hj => hfail j (by omega)]
      obtain ⟨x, hsend, hx⟩ := hfail k (Nat.lt_succ_self k)
      have hsend' :
          env.sent (World.pausedTimes py topic key eventEnvelope env k w).1.sends key = some x := by
        rw [World.pausedTimes_sends]
        exact hsend
      have hremaining : maxRetries - k = maxRetries - (k + 1) + 1 := by omega
      have hbackoff : backoffSeconds (maxRetries - (maxRetries - (k + 1)))
          = .ok (backoffBaseSeconds * 2 ^ k) := by
        have hattempt : maxRetries - (maxRetries - (k + 1)) = k + 1 := by omega
        rw [hattempt, backoffSeconds_of_le (by omega), Nat.add_sub_cancel]
      have hlast : lastFailure env w key (k + 1) = some x := hsend
      rw [hremaining, leads_publishAttempts_fail hsleep hsend' hx, hbackoff, hlast]
      exact Iff.rfl

/-- How a call ends: its result, and the number of attempts it made. -/
def EndsWith (py : PyLib) (env : Env) (w : World) (topic : String) (key : Json)
    (eventEnvelope : EventEnvelope) (maxRetries : ℕ) (result : Except Exn Unit) (attempts : ℕ) :
    Prop :=
  Prog.Leads (perform env) (publishWithRetry py ⟨true⟩ topic key eventEnvelope maxRetries) w
    fun r w' => r = result ∧ w'.1.sends = w.1.sends + attempts

/-- The first attempt that does not fail with a transient exception decides the result. -/
theorem endsWith_stop (hsleep : ∀ n t, env.fault n (.sleep t) = none) {k : ℕ} (hk : k < maxRetries)
    (hover : k ≤ 1024) (hfail : FailedBefore (fun j => env.sent (w.1.sends + j) key) k)
    (hstop : ∀ x, env.sent (w.1.sends + k) key = some x → isTransient x = false) :
    EndsWith py env w topic key eventEnvelope maxRetries
      (match env.sent (w.1.sends + k) key with
        | none => .ok ()
        | some x => .error x) (k + 1) := by
  have hremaining : maxRetries - k = maxRetries - (k + 1) + 1 := by omega
  have hsends : (World.pausedTimes py topic key eventEnvelope env k w).1.sends = w.1.sends + k :=
    World.pausedTimes_sends k
  rw [EndsWith, leads_publishAttempts_go hsleep (by omega) hover hfail, hremaining,
    leads_publishAttempts_stop (by rw [hsends]; exact hstop), World.published_sends, hsends]
  exact ⟨rfl, by omega⟩

/-- When every attempt fails, the exception of the last one is raised. -/
theorem endsWith_exhausted (hsleep : ∀ n t, env.fault n (.sleep t) = none)
    (hover : maxRetries ≤ 1024)
    (hfail : FailedBefore (fun j => env.sent (w.1.sends + j) key) maxRetries) {x : Exn}
    (hlast : lastFailure env w key maxRetries = some x) :
    EndsWith py env w topic key eventEnvelope maxRetries (.error x) maxRetries := by
  rw [EndsWith, leads_publishAttempts_go hsleep (Nat.le_refl _) hover hfail, Nat.sub_self, hlast,
    publishAttempts, raiseLast, Prog.leads_raise]
  exact ⟨rfl, World.pausedTimes_sends maxRetries⟩

/-- Without an attempt there is no exception to raise. -/
theorem endsWith_none : EndsWith py env w topic key eventEnvelope 0
    (.error ⟨.typeError, "exceptions must derive from BaseException"⟩) 0 :=
  ⟨rfl, rfl⟩

/-- The 1025th failure in a row is replaced by the overflow of its backoff. -/
theorem endsWith_overflow (hsleep : ∀ n t, env.fault n (.sleep t) = none)
    (hover : 1024 < maxRetries)
    (hfail : FailedBefore (fun j => env.sent (w.1.sends + j) key) 1025) :
    EndsWith py env w topic key eventEnvelope maxRetries
      (.error overflowError) 1025 := by
  obtain ⟨x, hsend, hx⟩ := hfail 1024 (by omega)
  have hremaining : maxRetries - 1024 = maxRetries - 1025 + 1 := by omega
  have hsends : (World.pausedTimes py topic key eventEnvelope env 1024 w).1.sends
      = w.1.sends + 1024 := World.pausedTimes_sends 1024
  have hbackoff : backoffSeconds (maxRetries - (maxRetries - 1025))
      = .error overflowError := by
    have hattempt : maxRetries - (maxRetries - 1025) = 1025 := by omega
    exact backoffSeconds_of_lt (by omega)
  rw [EndsWith, leads_publishAttempts_go hsleep (by omega) (Nat.le_refl 1024)
      fun j hj => hfail j (by omega), hremaining,
    leads_publishAttempts_fail hsleep (by rw [hsends]; exact hsend) hx, hbackoff]
  show _ ∧ _
  rw [World.published_sends, hsends]
  exact ⟨rfl, by omega⟩

/-- When a call keeps the contract: an attempt is allowed, and its backoffs are floats. -/
def Retryable (outcome : ℕ → Option Exn) (maxRetries : ℕ) : Prop :=
  0 < maxRetries ∧ (maxRetries ≤ 1024 ∨ ¬ FailedBefore outcome 1025)

/-- A call that keeps the contract ends with it. -/
theorem exists_endsWith (hsleep : ∀ n t, env.fault n (.sleep t) = none)
    (h : Retryable (fun k => env.sent (w.1.sends + k) key) maxRetries) :
    ∃ result attempts, EndsWith py env w topic key eventEnvelope maxRetries result attempts ∧
      RetryContract (fun k => env.sent (w.1.sends + k) key) maxRetries result attempts := by
  obtain ⟨hpos, hover⟩ := h
  rcases failedBefore_or_stops (fun k => env.sent (w.1.sends + k) key) maxRetries with
    hfail | ⟨k, hk, hfail, hstop⟩
  · have hsmall : maxRetries ≤ 1024 := by
      by_contra hlarge
      rcases hover with hle | hno
      · exact hlarge hle
      · exact hno (hfail.mono (by omega))
    obtain ⟨x, hx, -⟩ := hfail (maxRetries - 1) (by omega)
    have hlast : lastFailure env w key maxRetries = some x := by
      obtain ⟨n, rfl⟩ : ∃ n, maxRetries = n + 1 := ⟨maxRetries - 1, by omega⟩
      exact hx
    exact ⟨_, _, endsWith_exhausted hsleep hsmall hfail hlast, .of_failedBefore hpos hfail hx⟩
  · have hsmall : k ≤ 1024 := by
      by_contra hlarge
      rcases hover with hle | hno
      · omega
      · exact hno (hfail.mono (by omega))
    exact ⟨_, _, endsWith_stop hsleep hk hsmall hfail hstop, .of_stops hk hfail hstop⟩

/-- Any other call ends with an exception that is not transient, after failed attempts only. -/
theorem exists_endsWith_not (hsleep : ∀ n t, env.fault n (.sleep t) = none)
    (h : ¬ Retryable (fun k => env.sent (w.1.sends + k) key) maxRetries) :
    ∃ x attempts, EndsWith py env w topic key eventEnvelope maxRetries (.error x) attempts ∧
      isTransient x = false ∧ FailedBefore (fun k => env.sent (w.1.sends + k) key) attempts := by
  by_cases hpos : 0 < maxRetries
  · have hover : 1024 < maxRetries ∧ FailedBefore (fun k => env.sent (w.1.sends + k) key) 1025 := by
      by_contra hno
      apply h
      refine ⟨hpos, ?_⟩
      by_contra hor
      rw [not_or, not_not] at hor
      exact hno ⟨by omega, hor.2⟩
    exact ⟨_, _, endsWith_overflow hsleep hover.1 hover.2, rfl, hover.2⟩
  · obtain rfl : maxRetries = 0 := by omega
    exact ⟨_, _, endsWith_none, rfl, fun j hj => absurd hj (Nat.not_lt_zero j)⟩

end Runs

/-- A call of a started producer from `w` keeps the retry contract. -/
def KeepsRetryContract (py : PyLib) (env : Env) (w : World) (topic : String) (key : Json)
    (eventEnvelope : EventEnvelope) (maxRetries : ℕ) : Prop :=
  let run := (FraudKafkaProducer.publishWithRetry py ⟨true⟩ topic key eventEnvelope maxRetries).run
    (perform env) w
  RetryContract (fun k => env.sent (w.1.sends + k) key) maxRetries run.result
    (run.final.1.sends - w.1.sends)

/-- A call of a started producer keeps the retry contract exactly when at least one attempt is
allowed and no backoff overflows; a producer that has not been started raises at once. -/
theorem publishWithRetry_contract_iff (py : PyLib) (env : Env)
    (hsleep : ∀ n t, env.fault n (.sleep t) = none) (w : World) (topic : String) (key : Json)
    (eventEnvelope : EventEnvelope) (maxRetries : ℕ) :
    (KeepsRetryContract py env w topic key eventEnvelope maxRetries ↔
        Retryable (fun k => env.sent (w.1.sends + k) key) maxRetries) ∧
      (0 < maxRetries →
        (FraudKafkaProducer.publishWithRetry py ⟨false⟩ topic key eventEnvelope maxRetries).run
            (perform env) w
          = ⟨.error ⟨.runtimeError,
              "FraudKafkaProducer.start() must be called before publishing."⟩, [], w⟩) := by
  refine ⟨⟨?_, ?_⟩, ?_⟩
  · intro hkeeps
    by_contra hno
    have hends : ∃ x attempts,
        EndsWith py env w topic key eventEnvelope maxRetries (.error x) attempts ∧
          isTransient x = false ∧ FailedBefore (fun k => env.sent (w.1.sends + k) key) attempts :=
      exists_endsWith_not hsleep hno
    obtain ⟨x, attempts, ⟨hresult, hsends⟩, hx, hfail⟩ := hends
    rw [KeepsRetryContract, hresult, hsends, Nat.add_sub_cancel_left] at hkeeps
    obtain ⟨y, hy, heq⟩ := hkeeps.transient_of_failedBefore hfail
    cases heq
    rw [hx] at hy
    cases hy
  · intro hretryable
    have hends : ∃ result attempts,
        EndsWith py env w topic key eventEnvelope maxRetries result attempts ∧
          RetryContract (fun k => env.sent (w.1.sends + k) key) maxRetries result attempts :=
      exists_endsWith hsleep hretryable
    obtain ⟨result, attempts, ⟨hresult, hsends⟩, hkeeps⟩ := hends
    rw [KeepsRetryContract, hresult, hsends, Nat.add_sub_cancel_left]
    exact hkeeps
  · intro hpos
    obtain ⟨n, rfl⟩ : ∃ n, maxRetries = n + 1 := ⟨maxRetries - 1, by omega⟩
    rfl

/-- With the default of three attempts against a broker that refuses every send. -/
theorem publishWithRetry_contract_failing :
    KeepsRetryContract CompactJson.compactJson failingEnv World.fresh "fraud.events" (.str "acct-1")
      sampleEvent 3 :=
  (publishWithRetry_contract_iff CompactJson.compactJson failingEnv (fun _ _ => rfl) World.fresh
    "fraud.events" (.str "acct-1") sampleEvent 3).1.mpr ⟨by decide, Or.inl (by decide)⟩

/-- With no attempt allowed the call ends with a `TypeError`, without a publish. -/
theorem not_keepsRetryContract_zero :
    ¬ KeepsRetryContract CompactJson.compactJson Env.calm World.fresh "fraud.events"
      (.str "acct-1") sampleEvent 0 := by
  intro h
  obtain ⟨-, x, hx, -, hresult⟩ := h.exhausted fun j hj => absurd hj (Nat.not_lt_zero j)
  cases hresult
  cases hx

end FraudDetection.Kafka
