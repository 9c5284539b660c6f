import FraudDetection.Kafka.Effects

/-!
# `FraudKafkaProducer` and `DLQHandler`

Publishing an envelope, wrapping a failed event into the dead-letter topic, and replaying dead
letters into their original topic.
-/

namespace FraudDetection.Kafka

open Async Python

/-! ## The producer -/

/-- The producer's lifecycle flag, set by `start` and cleared by `stop`. -/
structure FraudKafkaProducer where
  started : Bool

/-- Publish an envelope. A `KafkaError` is logged and raised again. -/
def FraudKafkaProducer.publish (py : PyLib) (p : FraudKafkaProducer) (topic : String) (key : Json)
    (eventEnvelope : EventEnvelope) : Async Unit := do
  if !p.started then
    .raise ⟨.runtimeError, "FraudKafkaProducer.start() must be called before publishing."⟩
  else
    let payloadBytes := eventEnvelope.toJson py
    (await (.sendAndWait topic key payloadBytes)).tryExcept Exn.isKafkaError .raise

/-! ## Dead letters -/

/-- A dead-letter handler: the producer it publishes through and the suffix of its topics. -/
structure DLQHandler where
  producer : FraudKafkaProducer
  dlqSuffix : String

namespace DLQHandler

variable (py : PyLib) (h : DLQHandler)

/-- The dead-letter topic of `originalTopic`. -/
def dlqTopic (originalTopic : String) : String := originalTopic ++ h.dlqSuffix

/-- The payload of a dead letter: the original event under the metadata of its failure. -/
def dlqPayload (originalTopic : String) (eventEnvelope : EventEnvelope) (errorMessage : String)
    (retryCount : ℕ) (failedAt : String) : Json :=
  .dict [("original_topic", .str originalTopic), ("original_event", eventEnvelope.toDict),
    ("error_message", .str errorMessage), ("retry_count", .int retryCount),
    ("failed_at", .str failedAt)]

/-- The envelope published to the dead-letter topic. -/
def dlqEnvelope (eventEnvelope : EventEnvelope) (payload : Json) (eventId timestamp : String) :
    EventEnvelope :=
  { eventType := .str "dlq.entry"
    sourceService := .str "dlq-handler"
    correlationId := eventEnvelope.correlationId.or eventEnvelope.eventId
    payload := payload
    eventId := .str eventId
    timestamp := .str timestamp }

/-- Publish a failed event to the dead-letter topic. A `KafkaError` is logged and dropped, "we never
want DLQ failures to crash the consumer"; any other exception of the publish goes through. -/
def sendToDlq (originalTopic : String) (key : Json) (eventEnvelope : EventEnvelope)
    (errorMessage : String) (retryCount : ℕ) : Async Unit := do
  let failedAt ← await .isoNow
  let payload := dlqPayload originalTopic eventEnvelope errorMessage retryCount failedAt
  let eventId ← await .uuid4
  let timestamp ← await .isoNow
  (h.producer.publish py (h.dlqTopic originalTopic) key
    (dlqEnvelope eventEnvelope payload eventId timestamp)).tryExcept
      Exn.isKafkaError fun _ => pure ()

/-! ## Replay -/

/-- `v.get(key, default())`: the default is evaluated after the attribute lookup, always. -/
def getOrElse (v : Json) (key : String) (default : Async String) : Async Json := do
  let fs ← Prog.lift v.fields
  let d ← default
  return (fs.lookup key).getD (.str d)

/-- The event inside a decoded DLQ record: its `payload.original_event`, or the value itself. -/
def unwrap (wrapper : Json) : Except Exn Json := do
  let payload ← wrapper.get "payload" (.dict [])
  payload.get "original_event" wrapper

/-- The envelope rebuilt from an unwrapped event, with generated defaults for its id and time. -/
def rebuild (originalData : Json) : Async EventEnvelope := do
  let eventId ← getOrElse originalData "event_id" (await .uuid4)
  let eventType ← Prog.lift (originalData.getItem "event_type")
  let sourceService ← Prog.lift (originalData.getItem "source_service")
  let correlationId ← Prog.lift (originalData.get "correlation_id" .null)
  let timestamp ← getOrElse originalData "timestamp" (await .isoNow)
  let payload ← Prog.lift (originalData.get "payload" (.dict []))
  return { eventType, sourceService, payload, eventId, correlationId, timestamp }

/-- The key of the republished record: the decoded record key, else the event id. -/
def replayKey (record : Record) (envelope : EventEnvelope) : Except Exn Json :=
  match record.key with
  | some k => if k.isEmpty then .ok envelope.eventId else Json.str <$> decodeUtf8 k
  | none => .ok envelope.eventId

/-- The body of the `try` in `replay`: unwrap one record and republish its event. -/
def replayRecord (originalTopic : String) (record : Record) : Async Unit := do
  let wrapper ← Prog.lift (py.loads record.value)
  let originalData ← Prog.lift (unwrap wrapper)
  let envelope ← rebuild originalData
  let key ← Prog.lift (replayKey record envelope)
  h.producer.publish py originalTopic key envelope

/-- The loop over the records of a batch; `replayed` counts those that went through, and a record
that raises is logged and passed over. -/
def replayRecords (originalTopic : String) : List Record → ℕ → Async ℕ
  | [], replayed => pure replayed
  | record :: records, replayed => do
      let replayed ← (do
        replayRecord py h originalTopic record
        return replayed + 1 : Async ℕ).tryExcept Exn.isException fun _ => pure replayed
      replayRecords originalTopic records replayed

/-- Replay one batch of dead letters into `originalTopic` and commit it. -/
def replay (originalTopic : String) (batchSize : ℕ) : Async ℕ :=
  Prog.tryFinally (do
    await .start
    let messages ← await (.getmany (h.dlqTopic originalTopic) batchSize)
    let replayed ← replayRecords py h originalTopic messages.flatten 0
    -- one commit for the whole batch, whatever became of its records
    await .commit
    return replayed)
  (await .stop)

end DLQHandler

end FraudDetection.Kafka
