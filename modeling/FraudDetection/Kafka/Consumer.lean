import FraudDetection.Python.CompactJson
import FraudDetection.Kafka.DeadLetter

/-!
# `FraudKafkaConsumer`

The consume loop and the processing of one message: deserialise, look the event id up in Redis, call
the handler with retries, route to the dead-letter topic, record the id, commit.
-/

namespace FraudDetection.Kafka

open Async Python

/-- The consumer: its configuration, and what `start` sets (`consumer`, `running`, `dlqHandler`). -/
structure FraudKafkaConsumer where
  groupId : String
  redis : Bool
  dlqProducer : Option FraudKafkaProducer
  autoCommit : Bool
  maxRetries : ℕ
  dedupTtl : ℤ
  consumer : Bool
  running : Bool
  dlqHandler : Option DLQHandler

/-- `_DEFAULT_DLQ_SUFFIX` -/
def defaultDlqSuffix : String := ".dlq"

/-- `_BACKOFF_BASE_SECONDS` -/
def backoffBaseSeconds : ℚ := 1 / 2

/-- `_BACKOFF_BASE_SECONDS * (2 ** (attempt - 1))`. The power is an `int` that has to become a
float, and from `2 ** 1024` on it does not. -/
def backoffSeconds (attempt : ℕ) : Except Exn ℚ :=
  if attempt - 1 < 1024 then .ok (backoffBaseSeconds * 2 ^ (attempt - 1)) else .error overflowError

/-- Up to the 1024th attempt there is a backoff. -/
theorem backoffSeconds_of_le {attempt : ℕ} (h : attempt ≤ 1024) :
    backoffSeconds attempt = .ok (backoffBaseSeconds * 2 ^ (attempt - 1)) := by
  rw [backoffSeconds, if_pos (by omega)]

/-- From the 1025th on there is none. -/
theorem backoffSeconds_of_lt {attempt : ℕ} (h : 1024 < attempt) :
    backoffSeconds attempt = .error overflowError := by
  rw [backoffSeconds, if_neg (by omega)]

theorem backoffSeconds_error {attempt : ℕ} {x : Exn} (h : backoffSeconds attempt = .error x) :
    1024 < attempt ∧ x = overflowError := by
  by_cases hle : attempt ≤ 1024
  · rw [backoffSeconds_of_le hle] at h
    cases h
  · rw [backoffSeconds_of_lt (by omega), Except.error.injEq] at h
    exact ⟨by omega, h.symm⟩

/-- `a or b` for an optional string `a`. -/
def orElse (a : Option String) (b : Json) : Json :=
  match a with
  | some s => (Json.str s).or b
  | none => b

namespace FraudKafkaConsumer

variable (py : PyLib) (c : FraudKafkaConsumer)

/-! ## Lifecycle -/

/-- The consumer as the constructor leaves it. -/
def new (groupId : String) (redis : Bool) (dlqProducer : Option FraudKafkaProducer)
    (autoCommit : Bool) (maxRetries : ℕ) (dedupTtl : ℤ) : FraudKafkaConsumer :=
  { groupId, redis, dlqProducer, autoCommit, maxRetries, dedupTtl
    consumer := false, running := false, dlqHandler := none }

/-- The consumer once Kafka is connected, with the producer of its dead letters. -/
def connected (producer : FraudKafkaProducer) : FraudKafkaConsumer :=
  { c with
    consumer := true
    dlqProducer := some producer
    dlqHandler := some ⟨producer, defaultDlqSuffix⟩
    running := true }

/-- Start the Kafka consumer and, if none was given, a dead-letter producer. -/
def start : Async FraudKafkaConsumer := do
  if c.running then
    return c
  else
    await .start
    match c.dlqProducer with
    | some producer => return c.connected producer
    | none => do
        await .start
        return c.connected ⟨true⟩

/-- What `start` establishes. -/
structure Started (c : FraudKafkaConsumer) : Prop where
  consumer : c.consumer = true
  running : c.running = true
  dlqHandler : ∃ h, c.dlqHandler = some h ∧ h.producer.started = true

theorem started_connected {producer : FraudKafkaProducer} (hp : producer.started = true) :
    (c.connected producer).Started :=
  ⟨rfl, rfl, _, rfl, hp⟩

/-- A consumer that `start` returns has been started, if the producer it was given has. -/
theorem started_of_start {σ : Type} (f : (op : Op) → σ → Except Exn op.Ret × σ) (s : σ)
    {c c' : FraudKafkaConsumer} (hc : c.running = false)
    (hp : ∀ producer, c.dlqProducer = some producer → producer.started = true)
    (h : (c.start.run f s).result = .ok c') : c'.Started := by
  unfold start at h
  rw [hc] at h
  simp only [Bool.false_eq_true, if_false, Prog.run_bind, Prog.run_await] at h
  cases hstart : (f .start s).1 with
  | error x => simp [hstart] at h
  | ok _ =>
      simp only [hstart] at h
      cases hprod : c.dlqProducer with
      | some producer =>
          rw [hprod] at h
          cases h
          exact started_connected c (hp producer hprod)
      | none =>
          rw [hprod] at h
          simp only [Prog.run_bind, Prog.run_await] at h
          cases hstart' : (f .start (f .start s).2).1 with
          | error x => simp [hstart'] at h
          | ok _ =>
              simp only [hstart'] at h
              cases h
              exact started_connected c rfl

/-! ## Idempotency helpers -/

/-- The Redis key that marks an event id as processed. -/
def dedupKey (eventId : Json) : String := "fraud:dedup:" ++ py.str eventId

/-- Whether the event id was already processed; `False` when Redis is absent or fails. -/
def isDuplicate (eventId : Json) : Async Bool :=
  if !c.redis then pure false
  -- fail open: process the message rather than risk data loss
  else (await (.redisExists (dedupKey py eventId))).tryExcept Exn.isException
    fun _ => pure false

/-- Record the event id with the dedup TTL; a failure is logged and dropped. -/
def markProcessed (eventId : Json) : Async Unit :=
  if !c.redis then pure ()
  else (await (.redisSet (dedupKey py eventId) "1" c.dedupTtl)).tryExcept Exn.isException
    fun _ => pure ()

/-! ## Processing -/

/-- One handler call: the exception it raised, if any. -/
def tryHandler (envelope : EventEnvelope) : Async (Option Exn) :=
  (do
    await (.handlerFn envelope)
    return none : Async (Option Exn)).tryExcept Exn.isException fun exc => pure (some exc)

/-- All retries exhausted: route the event to the dead-letter topic. -/
def exhausted (message : Message) (envelope : EventEnvelope) (lastExc : Option Exn) : Async Unit :=
  match c.dlqHandler with
  | some h => h.sendToDlq py message.topic (orElse message.key envelope.eventId) envelope
      ((lastExc.map Exn.text).getD "None") c.maxRetries
  | none => pure ()

/-- The attempts left to make, with the exception of the last one made. -/
def attempts (message : Message) (envelope : EventEnvelope) : ℕ → Option Exn → Async Unit
  | 0, lastExc => exhausted py c message envelope lastExc
  | remaining + 1, _ => do
      match ← tryHandler envelope with
      | none => return ()
      | some exc =>
          let attempt := c.maxRetries - remaining
          -- computed inside the `except` clause, after the last attempt too: what it raises is not caught
          let backoff ← Prog.lift (backoffSeconds attempt)
          -- no pause after the last attempt
          if attempt < c.maxRetries then
            await (.sleep backoff)
          attempts message envelope remaining (some exc)

/-- Invoke the handler with backoff; after the last failure route the event to the DLQ. -/
def handleWithRetry (message : Message) (envelope : EventEnvelope) : Async Unit :=
  attempts py c message envelope c.maxRetries none

/-- `if not self._auto_commit and self._consumer is not None: await self._consumer.commit()` -/
def commitOffset : Async Unit :=
  if !c.autoCommit && c.consumer then await .commit else pure ()

/-- The exceptions of `from_json` that route a message to the dead-letter topic. -/
def isDeserialiseError (x : Exn) : Bool :=
  x.cls == .jsonDecodeError || x.cls == .typeError || x.cls == .keyError

/-- `message.value.decode("utf-8", errors="replace")` -/
def decodeValue (value : Option ByteArray) : Except Exn String :=
  match value with
  | some b => .ok (py.decodeReplace b)
  | none => .error ⟨.attributeError, "'NoneType' object has no attribute 'decode'"⟩

/-- The synthetic envelope that carries the text of an unparseable message. -/
def badEnvelope (raw eventId timestamp : String) : EventEnvelope :=
  { eventType := .str "unknown"
    sourceService := .str "unknown"
    payload := .dict [("raw", .str raw)]
    eventId := .str eventId
    correlationId := .null
    timestamp := .str timestamp }

/-- An unparseable message goes straight to the dead-letter topic; no commit follows. -/
def rejected (message : Message) (exc : Exn) : Async Unit :=
  match c.dlqHandler with
  | some h => do
      -- outside any `try`: the failure of the decode on a null value goes through
      let raw ← Prog.lift (decodeValue py message.value)
      let eventId ← await .uuid4
      let timestamp ← await .isoNow
      h.sendToDlq py message.topic (orElse message.key (.str "unknown"))
        (badEnvelope raw eventId timestamp) ("Deserialisation error: " ++ exc.text) 0
  | none => pure ()

/-- A parsed message: skip a duplicate, else handle it and record its id; commit in both cases. -/
def accepted (message : Message) (envelope : EventEnvelope) : Async Unit := do
  if ← isDuplicate py c envelope.eventId then
    commitOffset c
  else
    handleWithRetry py c message envelope
    -- reached as well when the event went to the dead-letter topic
    markProcessed py c envelope.eventId
    commitOffset c

/-- Deserialise, de-dup and dispatch a single Kafka message. -/
def processMessage (message : Message) : Async Unit :=
  match EventEnvelope.fromJson py message.value with
  | .ok envelope => accepted py c message envelope
  | .error exc => if isDeserialiseError exc then rejected py c message exc else .raise exc

/-- A message that parses is processed as accepted. -/
theorem processMessage_of_ok {message : Message} {envelope : EventEnvelope}
    (h : EventEnvelope.fromJson py message.value = .ok envelope) :
    c.processMessage py message = c.accepted py message envelope := by
  rw [processMessage, h]

/-- The loop over the messages the Kafka consumer yields. -/
def consumeLoop : List Message → Async Unit
  | [] => pure ()
  | message :: messages => do
      await (.deliver message)
      -- a shutdown request leaves the delivered message unprocessed
      if ← await .running then
        processMessage py c message
        consumeLoop messages

/-- Enter the main consume loop on the messages `messages`. -/
def consume (messages : List Message) : Async Unit :=
  if !c.running || !c.consumer then
    .raise ⟨.runtimeError, "FraudKafkaConsumer.start() must be called before consuming."⟩
  else
    (consumeLoop py c messages).tryExcept Exn.isCancelled fun _ => pure ()

end FraudKafkaConsumer

/-! ## A sample deployment -/

/-- An event as a producer would send it. -/
def sampleEvent : EventEnvelope :=
  { eventType := .str "transaction.created"
    sourceService := .str "gateway"
    payload := .dict [("amount", .int 100)]
    eventId := .str "e-1"
    correlationId := .str "c-1"
    timestamp := .str "2024-01-01T00:00:00+00:00" }

theorem sampleEvent_wf : sampleEvent.WF :=
  ⟨.str _, .str _, .dict (by simp) (by simp [Json.WF.int]), .str _, .str _, .str _⟩

/-- The message that carries `sampleEvent`. -/
def sampleMessage : Message :=
  ⟨"fraud.events", some "acct-1", some (sampleEvent.toJson CompactJson.compactJson), 0⟩

theorem fromJson_sampleMessage :
    EventEnvelope.fromJson CompactJson.compactJson sampleMessage.value = .ok sampleEvent :=
  EventEnvelope.fromJson_toJson _ sampleEvent_wf

/-- The dead-letter handler of `sampleConsumer`. -/
def sampleDlq : DLQHandler := ⟨⟨true⟩, defaultDlqSuffix⟩

/-- A started consumer with Redis, manual commits and one attempt for each event. -/
def sampleConsumer : FraudKafkaConsumer :=
  (FraudKafkaConsumer.new "scoring-engine" true none false 1 86400).connected ⟨true⟩

theorem processMessage_sample (c : FraudKafkaConsumer) :
    c.processMessage CompactJson.compactJson sampleMessage
      = c.accepted CompactJson.compactJson sampleMessage sampleEvent :=
  FraudKafkaConsumer.processMessage_of_ok _ _ fromJson_sampleMessage

/-- What a started consumer does in front of `sampleMessage`. -/
theorem consume_sample {c : FraudKafkaConsumer} (hrunning : c.running = true)
    (hconsumer : c.consumer = true) :
    c.consume CompactJson.compactJson [sampleMessage] = (do
      await (.deliver sampleMessage)
      if ← await .running then
        c.accepted CompactJson.compactJson sampleMessage sampleEvent
        pure () : Async Unit).tryExcept Exn.isCancelled fun _ => pure () := by
  unfold FraudKafkaConsumer.consume FraudKafkaConsumer.consumeLoop
  rw [hrunning, hconsumer, processMessage_sample]
  rfl

/-- The Redis key of `sampleEvent`. -/
def sampleKey : String :=
  FraudKafkaConsumer.dedupKey CompactJson.compactJson sampleEvent.eventId

/-- An environment in which every handler call fails. -/
def raisingEnv : Env :=
  { Env.calm with handler := fun _ => some ⟨.other "ValueError", "boom"⟩ }

/-- An environment in which every handler call fails and the broker refuses every send. -/
def failingEnv : Env :=
  { Env.calm with
    handler := fun _ => some ⟨.other "ValueError", "boom"⟩
    send := fun _ => some ⟨.kafkaError, "broker down"⟩ }

end FraudDetection.Kafka
