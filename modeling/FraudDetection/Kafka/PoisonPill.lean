import FraudDetection.Kafka.Replay

/-!
# When the processing of a message raises

With Redis and the offset commits working, five things make `_process_message` raise and end the
consume loop: a null value, bytes that `json.loads` cannot decode as text, a dead-letter publish
that fails with anything but a `KafkaError`, a dead letter under a key that is no text, and a
handler that fails 1025 times in a row. `processMessage_returns_iff` states this for every value,
every handler and every answer of the broker, as a condition on these and on the marker of the id.
-/

namespace FraudDetection.Kafka

open Async Python Store

/-! ## The dead-letter publish -/

/-- How a dead-letter publish ends, given the broker's answer: a `KafkaError` is dropped. -/
def dlqResult : Option Exn → Except Exn Unit
  | none => .ok ()
  | some x => if x.isKafkaError then .ok () else .error x

/-- It raises exactly on an answer that is not a `KafkaError`. -/
theorem dlqResult_eq_ok {answer : Option Exn} :
    dlqResult answer = .ok () ↔ ∀ x, answer = some x → x.isKafkaError = true := by
  cases answer with
  | none => simp [dlqResult]
  | some x =>
      unfold dlqResult
      by_cases hx : x.isKafkaError = true
      · simp [hx]
      · simp [hx]

section Results

variable {py : PyLib} {c : FraudKafkaConsumer} {h : DLQHandler} {env : Env} {w : World}

theorem DLQHandler.result_sendToDlq (hp : h.producer.started = true) (topic : String) (key : Json)
    (e : EventEnvelope) (msg : String) (n : ℕ) :
    ((h.sendToDlq py topic key e msg n).run (perform env) w).result
      = dlqResult (env.sent w.1.sends key) := by
  have hpublish : ∀ (e : EventEnvelope) (w' : World), w'.1.sends = w.1.sends →
      (((h.producer.publish py (h.dlqTopic topic) key e).tryExcept Exn.isKafkaError
        fun _ => pure ()).run (perform env) w').result = dlqResult (env.sent w.1.sends key) := by
    intro e w' hw'
    rw [Prog.run_tryExcept, DLQHandler.run_publish _ hp, Prog.run_await]
    cases hsend : env.sent w.1.sends key with
    | none => simp [perform, hw', hsend, dlqResult]
    | some x =>
        simp only [perform, hw', hsend, orFault_some, dlqResult]
        split <;> rfl
  unfold DLQHandler.sendToDlq
  rw [Prog.run_bind_of_ok (by rw [Prog.run_await]; rfl)]
  simp only
  rw [Prog.run_bind_of_ok (by rw [Prog.run_await]; rfl)]
  simp only
  rw [Prog.run_bind_of_ok (by rw [Prog.run_await]; rfl)]
  apply hpublish
  simp only [Prog.run_await]
  rfl

/-! ## The retry loop -/

/-- The next `n` handler calls all fail. -/
def HandlerFails (env : Env) (w : World) (n : ℕ) : Prop :=
  ∀ k < n, ∃ x, env.handler (w.1.handled + k) = some x

theorem handlerFails_succ {n : ℕ} {w' : World} (hw' : w'.1.handled = w.1.handled + 1) :
    HandlerFails env w (n + 1) ↔
      (∃ x, env.handler w.1.handled = some x) ∧ HandlerFails env w' n := by
  unfold HandlerFails
  rw [hw']
  constructor
  · intro hfails
    refine ⟨by simpa using hfails 0 (by omega), ?_⟩
    intro k hk
    have hnext := hfails (k + 1) (by omega)
    rwa [show w.1.handled + (k + 1) = w.1.handled + 1 + k by omega] at hnext
  · rintro ⟨hfirst, hrest⟩ k hk
    cases k with
    | zero => simpa using hfirst
    | succ k =>
        have hnext := hrest k (by omega)
        rwa [show w.1.handled + 1 + k = w.1.handled + (k + 1) by omega] at hnext

theorem HandlerFails.of_le {n k : ℕ} (h : HandlerFails env w n) (hk : k ≤ n) :
    HandlerFails env w k := fun j hj => h j (by omega)

/-- No event needs a backoff that is too large for a float: there are at most 1024 attempts, or one
of the next 1025 handler calls returns. -/
def BackoffFits (c : FraudKafkaConsumer) (env : Env) (w : World) : Prop :=
  c.maxRetries ≤ 1024 ∨ ¬ HandlerFails env w 1025

/-- One handler call: it uses up one outcome of the handler and sends nothing. -/
theorem run_tryHandler (hexc : ∀ k x, env.handler k = some x → x.isException = true)
    (e : EventEnvelope) :
    ((FraudKafkaConsumer.tryHandler e).run (perform env) w).result = .ok (env.handler w.1.handled) ∧
    ((FraudKafkaConsumer.tryHandler e).run (perform env) w).final.1.handled = w.1.handled + 1 ∧
    ((FraudKafkaConsumer.tryHandler e).run (perform env) w).final.1.sends = w.1.sends := by
  unfold FraudKafkaConsumer.tryHandler
  cases hf : env.handler w.1.handled with
  | none => simp [Prog.run_tryExcept, perform, hf]
  | some x => simp [Prog.run_tryExcept, perform, hf, hexc _ x hf]

/-- A pause goes through and uses up no outcome. -/
theorem run_sleep (henv : env.Reliable) (t : ℚ) :
    (await (.sleep t)).run (perform env) w = ⟨.ok (), [⟨w, ⟨.sleep t, .ok ()⟩⟩], w.tick⟩ := by
  rw [Prog.run_await]
  simp [perform, henv.fault]

variable (py w) in
/-- The retry loop returns once a call does, and else ends as the dead-letter publish. It raises
where the calls fail up to an attempt whose backoff overflows. -/
theorem result_attempts (hc : c.dlqHandler = some h) (hp : h.producer.started = true)
    (henv : env.Reliable) (hexc : ∀ k x, env.handler k = some x → x.isException = true)
    (m : Message) (e : EventEnvelope) {n : ℕ} (hn : n ≤ c.maxRetries) (last : Option Exn) :
    ((c.attempts py m e n last).run (perform env) w).result = .ok () ↔
      (∀ k < n, 1024 ≤ c.maxRetries - n + k → ¬ HandlerFails env w (k + 1)) ∧
      (HandlerFails env w n →
        dlqResult (env.sent w.1.sends (orElse m.key e.eventId)) = .ok ()) := by
  induction n generalizing last w with
  | zero =>
      unfold FraudKafkaConsumer.attempts FraudKafkaConsumer.exhausted
      rw [hc]
      simp only
      rw [DLQHandler.result_sendToDlq hp]
      simp [HandlerFails]
  | succ n ih =>
      obtain ⟨hresult, hhandled, hsends⟩ := run_tryHandler (w := w) hexc e
      unfold FraudKafkaConsumer.attempts
      rw [Prog.run_bind_of_ok hresult, handlerFails_succ hhandled]
      simp only
      cases hf : env.handler w.1.handled with
      | none =>
          have hreturns : ∀ k, ¬ HandlerFails env w (k + 1) := by
            intro k hfails
            obtain ⟨x, hx⟩ := hfails 0 (by omega)
            rw [Nat.add_zero, hf] at hx
            cases hx
          simp [hreturns]
      | some x =>
          simp only [Option.some.injEq, exists_eq', true_and]
          have hfirst : ∀ k, HandlerFails env w (k + 1) ↔ HandlerFails env
              ((FraudKafkaConsumer.tryHandler e).run (perform env) w).final k := by
            intro k
            rw [handlerFails_succ hhandled, and_iff_right ⟨x, hf⟩]
          by_cases hover : c.maxRetries - n ≤ 1024
          · rw [backoffSeconds_of_le hover, Prog.lift_ok, pure_bind, ← hsends]
            -- the calls after the first one, with one attempt less
            have hshift : (∀ k < n + 1, 1024 ≤ c.maxRetries - (n + 1) + k →
                  ¬ HandlerFails env w (k + 1)) ↔
                ∀ k < n, 1024 ≤ c.maxRetries - n + k → ¬ HandlerFails env
                  ((FraudKafkaConsumer.tryHandler e).run (perform env) w).final (k + 1) := by
              constructor
              · intro hall k hk hle
                rw [← hfirst]
                exact hall (k + 1) (by omega) (by omega)
              · intro hall k hk hle
                cases k with
                | zero => omega
                | succ k =>
                    rw [hfirst]
                    exact hall k (by omega) (by omega)
            rw [hshift]
            split
            · -- a pause follows every failure but the last; it does not touch the counters
              rw [Prog.run_bind, run_sleep henv]
              exact ih _ (by omega) (some x)
            · exact ih _ (by omega) (some x)
          · rw [backoffSeconds_of_lt (by omega)]
            have hfails : HandlerFails env w (0 + 1) := by
              rw [hfirst]
              exact fun k hk => absurd hk (Nat.not_lt_zero k)
            refine iff_of_false ?_ fun hall => hall.1 0 (by omega) (by omega) hfails
            simp [Prog.lift]

/-- The handling of an event returns exactly where no backoff overflows, and the dead-letter publish
raises nothing, if it comes to that. -/
theorem result_handleWithRetry (hc : c.dlqHandler = some h) (hp : h.producer.started = true)
    (henv : env.Reliable) (hexc : ∀ k x, env.handler k = some x → x.isException = true)
    (m : Message) (e : EventEnvelope) :
    ((c.handleWithRetry py m e).run (perform env) w).result = .ok () ↔
      BackoffFits c env w ∧ (HandlerFails env w c.maxRetries →
        dlqResult (env.sent w.1.sends (orElse m.key e.eventId)) = .ok ()) := by
  unfold FraudKafkaConsumer.handleWithRetry
  rw [result_attempts py w hc hp henv hexc m e le_rfl, Nat.sub_self]
  refine and_congr_left fun _ => ?_
  unfold BackoffFits
  constructor
  · intro hall
    by_cases hmax : c.maxRetries ≤ 1024
    · exact Or.inl hmax
    · exact Or.inr (hall 1024 (by omega) (by omega))
  · rintro (hmax | hreturns) k hk hle hfails
    · omega
    · exact hreturns (hfails.of_le (by omega))

/-! ## A whole message -/

/-- Whether the id is seen as a duplicate. -/
def SeenBefore (py : PyLib) (c : FraudKafkaConsumer) (env : Env) (w : World) (e : EventEnvelope) :
    Prop :=
  c.redis = true ∧ w.2.redis.exist (env.clock w.1.ops)
    (FraudKafkaConsumer.dedupKey py e.eventId) = true

/-- The message is meant for the dead-letter topic: it is no event, or an event not seen before on
which every attempt fails. -/
def RoutesToDlq (py : PyLib) (c : FraudKafkaConsumer) (env : Env) (w : World) (m : Message) : Prop :=
  (∃ x, EventEnvelope.fromJson py m.value = .error x ∧
    FraudKafkaConsumer.isDeserialiseError x = true) ∨
  ∃ e, EventEnvelope.fromJson py m.value = .ok e ∧ ¬ SeenBefore py c env w e ∧
    HandlerFails env w c.maxRetries

/-- The key of the dead letter of a message: its own, or else the id of the event in it. -/
def dlqKey (py : PyLib) (m : Message) : Json :=
  match EventEnvelope.fromJson py m.value with
  | .ok e => orElse m.key e.eventId
  | .error _ => orElse m.key (.str "unknown")

/-- No backoff overflows in the processing of the message. -/
def BackoffsFit (py : PyLib) (c : FraudKafkaConsumer) (env : Env) (w : World) (m : Message) : Prop :=
  ∀ e, EventEnvelope.fromJson py m.value = .ok e → ¬ SeenBefore py c env w e → BackoffFits c env w

variable (py c w) in
theorem run_isDuplicate_of_reliable (henv : env.Reliable) (e : EventEnvelope) :
    ∃ b, ((c.isDuplicate py e.eventId).run (perform env) w).result = .ok b ∧
      (b = true ↔ SeenBefore py c env w e) ∧
      ((c.isDuplicate py e.eventId).run (perform env) w).final.1.handled = w.1.handled ∧
      ((c.isDuplicate py e.eventId).run (perform env) w).final.1.sends = w.1.sends := by
  cases hr : c.redis with
  | false =>
      refine ⟨false, ?_, by simp [SeenBefore, hr], ?_, ?_⟩ <;>
        simp [FraudKafkaConsumer.isDuplicate, hr]
  | true =>
      rw [run_isDuplicate py hr henv.redisWorks]
      exact ⟨_, rfl, by simp [SeenBefore, hr], rfl, rfl⟩

theorem result_accepted (hc : c.dlqHandler = some h) (hp : h.producer.started = true)
    (henv : env.Reliable) (hexc : ∀ k x, env.handler k = some x → x.isException = true)
    (m : Message) (e : EventEnvelope) :
    ((c.accepted py m e).run (perform env) w).result = .ok () ↔
      (¬ SeenBefore py c env w e → BackoffFits c env w ∧ (HandlerFails env w c.maxRetries →
        dlqResult (env.sent w.1.sends (orElse m.key e.eventId)) = .ok ())) := by
  obtain ⟨b, hresult, hb, hhandled, hsends⟩ := run_isDuplicate_of_reliable py c w henv e
  unfold FraudKafkaConsumer.accepted
  rw [Prog.run_bind_of_ok hresult]
  simp only
  cases b with
  | true =>
      -- a duplicate: only the commit is left
      have hseen : SeenBefore py c env w e := hb.mp rfl
      simp [result_commitOffset henv, hseen]
  | false =>
      have hnot : ¬ SeenBefore py c env w e := fun hseen => by simpa using hb.mpr hseen
      have hhandling := @result_handleWithRetry py c h env
        ((c.isDuplicate py e.eventId).run (perform env) w).final hc hp henv hexc m e
      unfold BackoffFits HandlerFails at hhandling
      rw [hhandled, hsends] at hhandling
      simp only [Bool.false_eq_true, if_false, hnot, not_false_eq_true, true_imp_iff]
      rw [Prog.result_bind_ok]
      unfold BackoffFits HandlerFails
      rw [← hhandling]
      constructor
      · rintro ⟨u, hu, -⟩
        exact hu
      · intro hu
        refine ⟨(), hu, ?_⟩
        rw [Prog.run_bind_of_ok (result_markProcessed py henv _)]
        exact result_commitOffset henv

/-- In a healthy environment the processing of an unmarked event comes to its end exactly where no
backoff overflows, if the Kafka client takes the key of its dead letter. -/
theorem accepted_returns_iff (hc : c.Started) (henv : env.Healthy)
    (hexc : ∀ k x, env.handler k = some x → x.isException = true) {m : Message} {e : EventEnvelope}
    (hkey : Sendable (orElse m.key e.eventId))
    (hmark : w.2.redis.exist (env.clock w.1.ops) (FraudKafkaConsumer.dedupKey py e.eventId)
      = false) :
    ((c.accepted py m e).run (perform env) w).result = .ok () ↔ BackoffFits c env w := by
  obtain ⟨h, hh, hp⟩ := hc.dlqHandler
  have hnot : ¬ SeenBefore py c env w e := by
    rintro ⟨-, hseen⟩
    rw [hmark] at hseen
    cases hseen
  rw [result_accepted hh hp henv.toReliable hexc]
  simp [hnot, env.sent_of_sendable hkey, henv.send, dlqResult]

/-- A message that is no event goes through the dead-letter publish, unless it has no value. -/
theorem result_rejected (hc : c.dlqHandler = some h) (hp : h.producer.started = true)
    (m : Message) (x : Exn) :
    ((c.rejected py m x).run (perform env) w).result = .ok () ↔
      m.value ≠ none ∧ dlqResult (env.send w.1.sends) = .ok () := by
  unfold FraudKafkaConsumer.rejected
  rw [hc]
  cases hvalue : m.value with
  | none => simp [FraudKafkaConsumer.decodeValue]
  | some b =>
      simp only [FraudKafkaConsumer.decodeValue, Prog.lift_ok, pure_bind]
      rw [Prog.run_bind_of_ok (by rw [Prog.run_await]; rfl)]
      simp only
      rw [Prog.run_bind_of_ok (by rw [Prog.run_await]; rfl)]
      simp only
      rw [DLQHandler.result_sendToDlq hp, env.sent_of_sendable (sendable_orElse m.key "unknown")]
      simp only [Prog.run_await, ne_eq, reduceCtorEq, not_false_eq_true, true_and]
      exact Iff.rfl

/-- What `from_json` raises is routed to the dead-letter topic, unless it is the failure of
`json.loads` to decode the bytes. -/
theorem isDeserialiseError_iff {raw : Option ByteArray} {x : Exn}
    (hx : EventEnvelope.fromJson py raw = .error x) :
    FraudKafkaConsumer.isDeserialiseError x = true ↔
      ∀ y, py.loads raw = .error y → y.cls ≠ .unicodeDecodeError := by
  have hclass : ∀ y : Exn, FraudKafkaConsumer.isDeserialiseError y = true ↔
      y.cls = .jsonDecodeError ∨ y.cls = .typeError ∨ y.cls = .keyError := by
    intro y
    simp [FraudKafkaConsumer.isDeserialiseError, or_assoc]
  rw [hclass]
  rcases bind_eq_error.mp hx with hload | ⟨data, hload, hdata⟩
  · -- `json.loads` failed
    have hraised : x.cls = .jsonDecodeError ∨ x.cls = .unicodeDecodeError ∨ x.cls = .typeError := by
      cases raw with
      | none =>
          obtain ⟨text, hnone⟩ := py.loads_none
          cases hload.symm.trans hnone
          exact Or.inr (Or.inr rfl)
      | some b =>
          rcases py.loads_error b x hload with hcls | hcls
          · exact Or.inl hcls
          · exact Or.inr (Or.inl hcls)
    simp only [hload, Except.error.injEq, forall_eq']
    rcases hraised with hcls | hcls | hcls <;> simp [hcls]
  · -- it returned a value that is no envelope
    refine iff_of_true (Or.inr (EventEnvelope.ofJson_error hdata)) ?_
    intro y hy
    cases hload.symm.trans hy

variable (env w) in
/-- A dead-letter publish returns exactly where the Kafka client takes the key and no `OSError`
answers it. -/
theorem dlqResult_sent_eq_ok
    (hsend : ∀ k x, env.send k = some x → x.cls = .kafkaError ∨ x.cls = .osError) (key : Json) :
    dlqResult (env.sent w.1.sends key) = .ok () ↔
      Sendable key ∧ ∀ x, env.send w.1.sends = some x → x.cls ≠ .osError := by
  by_cases hkey : Sendable key
  · rw [env.sent_of_sendable hkey, dlqResult_eq_ok, and_iff_right hkey]
    refine forall_congr' fun x => imp_congr_right fun hx => ?_
    rcases hsend _ x hx with hcls | hcls <;> simp [Exn.isKafkaError, hcls]
  · -- a `TypeError` is no `KafkaError`
    obtain ⟨x, hx, hcls⟩ := env.sent_of_not_sendable hkey w.1.sends
    simp [hx, hkey, dlqResult, Exn.isKafkaError, hcls]

end Results

/-- With Redis and commits working, a handler that raises nothing but an `Exception` and a broker
that accepts a send or fails with a `KafkaError` or an `OSError`, the processing of a message
returns exactly when its value is not null, `json.loads` can decode it, no backoff overflows on it,
and a dead letter of it has a key that the Kafka client takes and is not answered by an
`OSError`. -/
theorem processMessage_returns_iff (py : PyLib) {c : FraudKafkaConsumer} (hc : c.Started)
    {env : Env} (henv : env.Reliable)
    (hexc : ∀ k x, env.handler k = some x → x.isException = true)
    (hsend : ∀ k x, env.send k = some x → x.cls = .kafkaError ∨ x.cls = .osError)
    (w : World) (m : Message) :
    ((c.processMessage py m).run (perform env) w).result = .ok () ↔
      m.value ≠ none ∧ (∀ x, py.loads m.value = .error x → x.cls ≠ .unicodeDecodeError) ∧
      BackoffsFit py c env w m ∧
      (RoutesToDlq py c env w m →
        Sendable (dlqKey py m) ∧ ∀ x, env.send w.1.sends = some x → x.cls ≠ .osError) := by
  obtain ⟨h, hh, hp⟩ := hc.dlqHandler
  rw [← dlqResult_sent_eq_ok env w hsend]
  unfold FraudKafkaConsumer.processMessage dlqKey
  cases hparse : EventEnvelope.fromJson py m.value with
  | error x =>
      have hclass := isDeserialiseError_iff hparse
      have hfits : BackoffsFit py c env w m := by
        intro e he
        rw [hparse] at he
        cases he
      rw [and_iff_right hfits]
      simp only
      by_cases hx : FraudKafkaConsumer.isDeserialiseError x = true
      · have hroutes : RoutesToDlq py c env w m := Or.inl ⟨x, hparse, hx⟩
        rw [if_pos hx, result_rejected hh hp, and_iff_right (hclass.mp hx),
          env.sent_of_sendable (sendable_orElse m.key "unknown")]
        simp [hroutes]
      · rw [if_neg hx, ← hclass]
        simp [hx]
  | ok e =>
      have hvalue : m.value ≠ none := by
        intro hnone
        obtain ⟨text, hload⟩ := py.loads_none
        rw [hnone, EventEnvelope.fromJson, hload] at hparse
        cases hparse
      have hload : ∀ x, py.loads m.value = .error x → x.cls ≠ .unicodeDecodeError := by
        intro x hx
        rw [EventEnvelope.fromJson, hx] at hparse
        cases hparse
      have hroutes : RoutesToDlq py c env w m ↔
          ¬ SeenBefore py c env w e ∧ HandlerFails env w c.maxRetries := by
        unfold RoutesToDlq
        simp [hparse]
      have hfits : BackoffsFit py c env w m ↔
          (¬ SeenBefore py c env w e → BackoffFits c env w) := by
        unfold BackoffsFit
        simp [hparse]
      simp only
      rw [result_accepted hh hp henv hexc, hroutes, hfits, and_imp, imp_and]
      simp only [hvalue, ne_eq, not_false_eq_true, true_and, and_iff_right hload]

/-- A message with a null value, a tombstone. -/
def tombstone : Message := ⟨"fraud.events", some "acct-1", none, 0⟩

theorem processMessage_returns_iff_sample :
    ((sampleConsumer.processMessage CompactJson.compactJson sampleMessage).run (perform failingEnv)
        World.fresh).result = .ok () ↔
      sampleMessage.value ≠ none ∧
      (∀ x, CompactJson.compactJson.loads sampleMessage.value = .error x →
        x.cls ≠ .unicodeDecodeError) ∧
      BackoffsFit CompactJson.compactJson sampleConsumer failingEnv World.fresh sampleMessage ∧
      (RoutesToDlq CompactJson.compactJson sampleConsumer failingEnv World.fresh sampleMessage →
        Sendable (dlqKey CompactJson.compactJson sampleMessage) ∧
          ∀ x, failingEnv.send World.fresh.1.sends = some x → x.cls ≠ .osError) := by
  refine processMessage_returns_iff _ (FraudKafkaConsumer.started_connected _ rfl)
    ⟨fun _ _ => rfl⟩ ?_ ?_ World.fresh sampleMessage
  · intro k x hx
    cases hx
    rfl
  · intro k x hx
    cases hx
    exact Or.inl rfl

/-- A null value makes the processing raise where every call goes through. -/
theorem tombstone_raises :
    ¬ ∀ m : Message, ((sampleConsumer.processMessage CompactJson.compactJson m).run
      (perform Env.calm) World.fresh).result = .ok () := by
  intro hclaim
  have hok := hclaim tombstone
  have hraised : ((sampleConsumer.processMessage CompactJson.compactJson tombstone).run
      (perform Env.calm) World.fresh).result
        = .error ⟨.attributeError, "'NoneType' object has no attribute 'decode'"⟩ := rfl
  rw [hraised] at hok
  cases hok

end FraudDetection.Kafka
