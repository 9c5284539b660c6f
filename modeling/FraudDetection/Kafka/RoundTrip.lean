import FraudDetection.Kafka.Redelivery

/-!
# Dead letters and back

Two round trips through the dead-letter topic. A well-formed event that is dead-lettered any number
of times, each time from the topic its last dead letter went to, and replayed as often comes back as
the event it was. A message that does not parse does not: what is replayed for it parses.
-/

namespace FraudDetection.Kafka

open Async Python Store

namespace DLQHandler

variable (py : PyLib) {h : DLQHandler} {env : Env} (w : World)

/-! ## One dead-letter publish -/

/-- A dead-letter publish generates its metadata and sends once. -/
theorem events_sendToDlq (hp : h.producer.started = true) (topic : String) (key : Json)
    (e : EventEnvelope) (msg : String) (n : ℕ) :
    ∃ failedAt id ts r,
      ((h.sendToDlq py topic key e msg n).run (perform env) w).events =
        [⟨.isoNow, .ok failedAt⟩, ⟨.uuid4, .ok id⟩, ⟨.isoNow, .ok ts⟩,
          ⟨.sendAndWait (h.dlqTopic topic) key (deadLetter py topic e msg n failedAt id ts), r⟩] ∧
      (env.sent w.1.sends key = none → r = .ok ()) := by
  let value := deadLetter py topic e msg n (env.isoNow w.1.ops) (env.uuid (w.1.ops + 1))
    (env.isoNow (w.1.ops + 1 + 1))
  let x := perform env (.sendAndWait (h.dlqTopic topic) key value) w.tick.tick.tick
  refine ⟨env.isoNow w.1.ops, env.uuid (w.1.ops + 1), env.isoNow (w.1.ops + 1 + 1), x.1, ?_, ?_⟩
  · have hsend : ((h.producer.publish py (h.dlqTopic topic) key (dlqEnvelope e (dlqPayload topic e
        msg n (env.isoNow w.1.ops)) (env.uuid (w.1.ops + 1)) (env.isoNow (w.1.ops + 1 + 1)))).run
        (perform env) w.tick.tick.tick).events
          = [⟨.sendAndWait (h.dlqTopic topic) key value, x.1⟩] := by
      rw [run_publish _ hp, Prog.events_await]
      rfl
    unfold sendToDlq
    rw [Prog.events_bind_of_ok (by rw [Prog.run_await]; rfl), Prog.events_await,
      Prog.events_bind_of_ok (by rw [Prog.run_await]; rfl), Prog.events_await,
      Prog.events_bind_of_ok (by rw [Prog.run_await]; rfl), Prog.events_await,
      Prog.events_tryExcept_pure]
    exact congrArg (fun es => (⟨.isoNow, _⟩ : Event) :: ⟨.uuid4, _⟩ :: ⟨.isoNow, _⟩ :: es) hsend
  · intro hsend
    simp [x, perform, hsend]

/-- What a dead-letter publish sends is a dead letter. -/
theorem deadLetter_of_sendToDlq (hp : h.producer.started = true) {topic : String} {key : Json}
    {e : EventEnvelope} {msg : String} {n : ℕ} {topic' : String} {key' : Json} {value : ByteArray}
    {r : Except Exn Unit}
    (hsent : ⟨.sendAndWait topic' key' value, r⟩ ∈
      ((h.sendToDlq py topic key e msg n).run (perform env) w).events) :
    ∃ failedAt id ts, value = deadLetter py topic e msg n failedAt id ts := by
  obtain ⟨failedAt, id, ts, r', hevents, -⟩ := events_sendToDlq py w hp topic key e msg n
  rw [hevents] at hsent
  simp only [List.mem_cons, List.not_mem_nil, or_false] at hsent
  rcases hsent with hev | hev | hev | hev
  · cases hev
  · cases hev
  · cases hev
  · cases hev
    exact ⟨failedAt, id, ts, rfl⟩

/-- What a dead-letter publish under a text key publishes in a healthy environment. -/
theorem published_sendToDlq (hp : h.producer.started = true) (henv : env.Healthy) (topic k : String)
    (e : EventEnvelope) (msg : String) (n : ℕ) :
    ∃ failedAt id ts,
      published ((h.sendToDlq py topic (.str k) e msg n).run (perform env) w).events
        = [⟨h.dlqTopic topic, .str k, deadLetter py topic e msg n failedAt id ts⟩] := by
  obtain ⟨failedAt, id, ts, r, hevents, hr⟩ :=
    events_sendToDlq py w hp topic (.str k) e msg n
  refine ⟨failedAt, id, ts, ?_⟩
  rw [hevents, hr (henv.send _)]
  rfl

/-! ## Any number of dead letters, and as many replays -/

/-- Where a call of the round trip runs: a healthy environment and any world. -/
structure Setting where
  env : Env
  world : World
  healthy : env.Healthy

/-- A dead-letter publish of the round trip, with the metadata its caller gives. -/
structure WrapSetting extends Setting where
  errorMessage : String
  retryCount : ℕ

/-- The topic of the `n`th dead letter: `topic`, `topic.dlq`, `topic.dlq.dlq`, ... -/
def topicAt (h : DLQHandler) (topic : String) : ℕ → String
  | 0 => topic
  | n + 1 => h.dlqTopic (h.topicAt topic n)

/-- The record a dead-letter publish of the round trip leaves. -/
def wrapOnce (py : PyLib) (h : DLQHandler) (s : WrapSetting) (topic : String) (key : Json)
    (e : EventEnvelope) : Option ProducerRecord :=
  (published ((h.sendToDlq py topic key e s.errorMessage s.retryCount).run
    (perform s.env) s.world).events).getLast?

/-- The record a replay of `p` into `topic` leaves. -/
def unwrapOnce (py : PyLib) (h : DLQHandler) (s : Setting) (topic : String) (batchSize : ℕ)
    (p : ProducerRecord) (offset : ℕ) : Option ProducerRecord :=
  (published ((h.replay py topic batchSize).run
    (perform (s.env.withBatch [p.stored offset])) s.world).events).getLast?

/-- The envelope that arrives at depth `n` and the record it was read from: the event is published
to `topic`, and each record is read back and dead-lettered from its own topic. -/
def wrapped (py : PyLib) (h : DLQHandler) (up : ℕ → WrapSetting) (topic : String) (key : Json)
    (e : EventEnvelope) : ℕ → Option (EventEnvelope × ProducerRecord)
  | 0 => do
      let p ← (published ((h.producer.publish py topic key e).run
        (perform (up 0).env) (up 0).world).events).getLast?
      return (e, p)
  | n + 1 => do
      let (e', _) ← wrapped py h up topic key e n
      let p ← wrapOnce py h (up (n + 1)) (h.topicAt topic n) key e'
      let e'' ← (EventEnvelope.fromJson py (some p.value)).toOption
      return (e'', p)

/-- The record that `n` replays bring back from a record at depth `n`. -/
def unwrapped (py : PyLib) (h : DLQHandler) (down : ℕ → Setting) (topic : String)
    (batchSize : ℕ) : ℕ → ProducerRecord → Option ProducerRecord
  | 0, p => some p
  | n + 1, p => do
      let p' ← unwrapOnce py h (down n) (h.topicAt topic n) batchSize p n
      unwrapped py h down topic batchSize n p'

theorem published_publish (hp : h.producer.started = true) (henv : env.Healthy) (topic k : String)
    (e : EventEnvelope) :
    published ((h.producer.publish py topic (.str k) e).run (perform env) w).events
      = [⟨topic, .str k, e.toJson py⟩] := by
  rw [run_publish _ hp, Prog.events_await]
  simp [perform, henv.send, published, accepted?]

theorem toJson_normalise (e : EventEnvelope) : e.normalise.toJson py = e.toJson py := by
  unfold EventEnvelope.toJson
  rw [EventEnvelope.toDict_normalise]

/-- A dead-letter publish of the round trip leaves a dead letter in the next topic. -/
theorem wrapOnce_eq (hp : h.producer.started = true) (s : WrapSetting) (topic k : String)
    (e : EventEnvelope) :
    ∃ failedAt id ts, wrapOnce py h s topic (.str k) e = some ⟨h.dlqTopic topic, .str k,
      deadLetter py topic e s.errorMessage s.retryCount failedAt id ts⟩ := by
  obtain ⟨failedAt, id, ts, hpub⟩ := published_sendToDlq py s.world hp s.healthy
    topic k e s.errorMessage s.retryCount
  refine ⟨failedAt, id, ts, ?_⟩
  rw [wrapOnce, hpub]
  rfl

/-- A replay of a dead letter leaves the event it carries, under the same key. -/
theorem unwrapOnce_deadLetter (hp : h.producer.started = true) (s : Setting) (topic : String)
    (batchSize offset : ℕ) {k : String} (hk : k ≠ "") {e : EventEnvelope} (he : e.WF)
    (dlqTopic topic' msg : String) (count : ℕ) (failedAt id ts : String) :
    unwrapOnce py h s topic batchSize
        ⟨dlqTopic, .str k, deadLetter py topic' e msg count failedAt id ts⟩ offset
      = some ⟨topic, .str k, e.toJson py⟩ := by
  let record : Record :=
    ProducerRecord.stored ⟨dlqTopic, .str k, deadLetter py topic' e msg count failedAt id ts⟩ offset
  have hvalue : record.value = some (deadLetter py topic' e msg count failedAt id ts) := rfl
  have hkey : keyDeserializer record.key = .ok (some k) := keyDeserializer_toUTF8 hk
  have hbatch : batchOf (s.env.withBatch [record]) = [record] := rfl
  rw [unwrapOnce, published_replay_deadLetter hp (s.healthy.withBatch [record]) he topic batchSize
    s.world hbatch hvalue hkey (sendable_str k)]
  rfl

/-- An event that is dead-lettered `n` times and replayed `n` times is published to its topic as it
was, under its key. -/
theorem unwrapped_wrapped (hp : h.producer.started = true) (up : ℕ → WrapSetting)
    (down : ℕ → Setting) (topic : String) (batchSize : ℕ) {k : String} (hk : k ≠ "")
    {e : EventEnvelope} (he : e.WF) (n : ℕ) :
    ∃ e' p, wrapped py h up topic (.str k) e n = some (e', p) ∧ e'.WF ∧
      p = ⟨h.topicAt topic n, .str k, e'.toJson py⟩ ∧
      unwrapped py h down topic batchSize n p = some ⟨topic, .str k, e.toJson py⟩ := by
  induction n with
  | zero =>
      refine ⟨e, ⟨topic, .str k, e.toJson py⟩, ?_, he, rfl, rfl⟩
      rw [wrapped, published_publish py _ hp (up 0).healthy]
      rfl
  | succ n ih =>
      -- the envelope at depth `n` is wrapped once more; the first replay takes that off again
      obtain ⟨e', p, hwrapped, he', rfl, hunwrapped⟩ := ih
      obtain ⟨failedAt, id, ts, hwrap⟩ := wrapOnce_eq py hp (up (n + 1))
        (h.topicAt topic n) k e'
      have hwf := dlqEnvelope_wf he' (h.topicAt topic n) (up (n + 1)).errorMessage
        (up (n + 1)).retryCount failedAt id ts
      have hread := EventEnvelope.fromJson_toJson py hwf
      refine ⟨_, _, ?_, hwf.normalise, rfl, ?_⟩
      · rw [wrapped, hwrapped]
        show (wrapOnce py h (up (n + 1)) (h.topicAt topic n) (.str k) e').bind _ = _
        rw [hwrap, Option.bind_some]
        show (EventEnvelope.fromJson py (some (EventEnvelope.toJson py _))).toOption.bind _ = _
        rw [hread, toJson_normalise]
        rfl
      · rw [unwrapped, toJson_normalise]
        have hreplay := unwrapOnce_deadLetter py hp (down n) (h.topicAt topic n) batchSize n
          hk he' (h.topicAt topic (n + 1)) (h.topicAt topic n) (up (n + 1)).errorMessage
          (up (n + 1)).retryCount failedAt id ts
        unfold deadLetter at hreplay
        rw [hreplay]
        exact hunwrapped

/-- The dead-letter round trip: after `n` dead-letter publishes and `n` replays the original topic
gets a record under the original key that is read as the event with its correlation id
normalised. -/
theorem deadLetter_roundTrip (py : PyLib) (h : DLQHandler) (hp : h.producer.started = true)
    (up : ℕ → WrapSetting) (down : ℕ → Setting) (topic : String) (batchSize : ℕ) (k : String)
    (hk : k ≠ "") (e : EventEnvelope) (he : e.WF) (n : ℕ) :
    ∃ e' p p', wrapped py h up topic (.str k) e n = some (e', p) ∧
      unwrapped py h down topic batchSize n p = some p' ∧
      p'.topic = topic ∧ p'.key = .str k ∧
      EventEnvelope.fromJson py (some p'.value) = .ok e.normalise := by
  obtain ⟨e', p, hwrapped, -, -, hunwrapped⟩ :=
    unwrapped_wrapped py hp up down topic batchSize hk he n
  exact ⟨e', p, _, hwrapped, hunwrapped, rfl, rfl, EventEnvelope.fromJson_toJson py he⟩

end DLQHandler

/-- A calm setting, for every call of a round trip. -/
def calmSetting : DLQHandler.Setting := ⟨Env.calm, World.fresh, Env.calm_healthy⟩

theorem deadLetter_roundTrip_sample :
    ∃ e' p p', DLQHandler.wrapped CompactJson.compactJson sampleDlq (fun _ => ⟨calmSetting, "boom", 3⟩)
        "fraud.events" (.str "acct-1") sampleEvent 2 = some (e', p) ∧
      DLQHandler.unwrapped CompactJson.compactJson sampleDlq (fun _ => calmSetting) "fraud.events" 100
        2 p = some p' ∧
      p'.topic = "fraud.events" ∧ p'.key = .str "acct-1" ∧
      EventEnvelope.fromJson CompactJson.compactJson (some p'.value) = .ok sampleEvent.normalise :=
  DLQHandler.deadLetter_roundTrip _ _ rfl _ _ _ _ _ (by decide) _ sampleEvent_wf _

/-! ## Messages that do not parse -/

section Unparseable

variable {py : PyLib} {c : FraudKafkaConsumer} {m : Message} {b : ByteArray} {x : Exn} {env : Env}
  {w : World}

theorem badEnvelope_wf (raw id ts : String) :
    (FraudKafkaConsumer.badEnvelope raw id ts).WF :=
  ⟨.str _, .str _, .dict (by simp) (by simp [Json.WF.str]), .str _, .null, .str _⟩

/-- What an unparseable message leaves in the dead-letter topic is a dead letter for the synthetic
envelope of its text. -/
theorem badEnvelope_of_sent (hc : c.Started) (hb : m.value = some b)
    (hx : EventEnvelope.fromJson py (some b) = .error x)
    (hdlq : FraudKafkaConsumer.isDeserialiseError x = true)
    {topic : String} {key : Json} {value : ByteArray} {r : Except Exn Unit}
    (hdead : ⟨.sendAndWait topic key value, r⟩ ∈
      ((c.processMessage py m).run (perform env) w).events) :
    ∃ raw id ts msg n failedAt id' ts', value = DLQHandler.deadLetter py m.topic
      (FraudKafkaConsumer.badEnvelope raw id ts) msg n failedAt id' ts' := by
  obtain ⟨h, hh, hp⟩ := hc.dlqHandler
  rw [FraudKafkaConsumer.processMessage, hb, hx] at hdead
  simp only [hdlq, if_true, FraudKafkaConsumer.rejected, hh, hb] at hdead
  rw [FraudKafkaConsumer.decodeValue, Prog.lift_ok, pure_bind,
    Prog.events_bind_of_ok (by rw [Prog.run_await]; rfl), Prog.events_await,
    Prog.events_bind_of_ok (by rw [Prog.run_await]; rfl), Prog.events_await] at hdead
  simp only [List.mem_append, List.mem_singleton] at hdead
  rcases hdead with hev | hev | hmem
  · cases hev
  · cases hev
  · obtain ⟨failedAt, id', ts', rfl⟩ := DLQHandler.deadLetter_of_sendToDlq py _ hp hmem
    exact ⟨_, _, _, _, _, _, _, _, rfl⟩

/-- No unparseable message comes back from the dead-letter topic as it was: a replay of its dead
letter publishes another value, one that parses as an event, and a consumer that receives it calls
its handler on that event. -/
theorem replayed_unparseable (py : PyLib) {c : FraudKafkaConsumer} (hc : c.Started)
    -- a message that does not parse is routed to the dead-letter topic
    {m : Message} {b : ByteArray} (hb : m.value = some b) {x : Exn}
    (hx : EventEnvelope.fromJson py (some b) = .error x)
    (hdlq : FraudKafkaConsumer.isDeserialiseError x = true) {env : Env} {w : World}
    {dlqTopic : String} {key : Json} {value : ByteArray}
    (hdead : ⟨.sendAndWait dlqTopic key value, .ok ()⟩ ∈
      ((c.processMessage py m).run (perform env) w).events)
    -- a replay republishes the dead letter
    (h : DLQHandler) (batchSize : ℕ) (env₁ : Env) (w₁ : World) {record : Record}
    (hrecord : record.value = some value) {p : ProducerRecord}
    (hp : h.ReplayedFrom py m.topic batchSize env₁ w₁ record p) :
    p.value ≠ b ∧
    ∃ e, EventEnvelope.fromJson py (some p.value) = .ok e ∧ e.eventType = .str "unknown" ∧
      ∀ (c' : FraudKafkaConsumer) (m' : Message) (env₂ : Env) (w₂ : World),
        m'.value = some p.value → c'.redis = true → env₂.RedisWorks → 1 ≤ c'.maxRetries →
        w₂.2.redis.exist (env₂.clock w₂.1.ops) (FraudKafkaConsumer.dedupKey py e.eventId) = false →
        ∃ r, ⟨.handlerFn e, r⟩ ∈ ((c'.processMessage py m').run (perform env₂) w₂).events := by
  obtain ⟨raw, id, ts, msg, n, failedAt, id', ts', rfl⟩ := badEnvelope_of_sent hc hb hx hdlq hdead
  have hwf := badEnvelope_wf raw id ts
  obtain ⟨fs, t, s, recordKey, id'', ts'', hr, -⟩ := hp.event
  have hpeq := hp.event.eq_of_deadLetter hwf hrecord hr.key
  have hparse := EventEnvelope.fromJson_toJson py hwf
  have hvalue : p.value = (FraudKafkaConsumer.badEnvelope raw id ts).toJson py := by
    rw [hpeq]
  rw [← hvalue] at hparse
  refine ⟨?_, _, hparse, rfl, ?_⟩
  · -- the published value parses, the original bytes do not
    rintro rfl
    rw [hx] at hparse
    cases hparse
  · intro c' m' env₂ w₂ hm' hredis hw hn hmark
    rw [← hm'] at hparse
    rw [FraudKafkaConsumer.processMessage_of_ok py c' hparse]
    exact handler_called_of_not_exist py hredis hw hn hmark

/-! ### A message that is no JSON -/

/-- A message whose value is the text `not json`. -/
def garbledMessage : Message := ⟨"fraud.events", some "acct-1", some "not json".toUTF8, 7⟩

theorem fromJson_garbled : EventEnvelope.fromJson CompactJson.compactJson
    (some "not json".toUTF8) = .error ⟨.jsonDecodeError, "Expecting value"⟩ := by
  have hparse : CompactJson.parse "not json".toList = none :=
    Option.isNone_iff_eq_none.mp (by decide)
  have hload : CompactJson.loads (some "not json".toUTF8)
      = .error ⟨.jsonDecodeError, "Expecting value"⟩ := by
    simp only [CompactJson.loads, decodeUtf8_toUTF8, bind, Except.bind, hparse]
  exact bind_eq_error.mpr (Or.inl hload)

theorem decodeReplace_toUTF8 (s : String) : CompactJson.decodeReplace s.toUTF8 = s := by
  rw [CompactJson.decodeReplace, fromUTF8?_toUTF8]

/-- The synthetic envelope made for it. -/
def garbledEnvelope : EventEnvelope := FraudKafkaConsumer.badEnvelope "not json" "id-0" "now-1"

/-- The value of its dead letter. -/
def garbledDeadValue : ByteArray :=
  DLQHandler.deadLetter CompactJson.compactJson "fraud.events" garbledEnvelope
    "Deserialisation error: Expecting value" 0 "now-2" "id-3" "now-4"

/-- Its dead letter. -/
def garbledDeadLetter : Record :=
  ⟨"fraud.events.dlq", some "acct-1".toUTF8, some garbledDeadValue, 0⟩

theorem garbled_sent :
    ⟨.sendAndWait "fraud.events.dlq" (.str "acct-1") garbledDeadValue, .ok ()⟩ ∈
    ((sampleConsumer.processMessage CompactJson.compactJson garbledMessage).run
      (perform Env.calm) World.fresh).events := by
  rw [FraudKafkaConsumer.processMessage, garbledMessage, fromJson_garbled]
  show _ ∈ ((sampleConsumer.rejected CompactJson.compactJson _ _).run _ _).events
  rw [FraudKafkaConsumer.rejected]
  show _ ∈ ((Prog.lift (.ok (CompactJson.decodeReplace "not json".toUTF8)) >>= _ : Async Unit).run
    _ _).events
  rw [decodeReplace_toUTF8]
  exact .tail _ (.tail _ (.tail _ (.tail _ (.tail _ (.head _)))))

/-- What a replay publishes for it. -/
def garbledReplayed : ProducerRecord :=
  ⟨"fraud.events", .str "acct-1", garbledEnvelope.toJson CompactJson.compactJson⟩

theorem garbled_replayedFrom : sampleDlq.ReplayedFrom CompactJson.compactJson
    garbledMessage.topic 100
    (Env.calm.withBatch [garbledDeadLetter]) World.fresh garbledDeadLetter garbledReplayed := by
  have hwf : garbledEnvelope.WF := badEnvelope_wf _ _ _
  have hvalue : garbledDeadLetter.value = some (DLQHandler.deadLetter CompactJson.compactJson
      "fraud.events" garbledEnvelope "Deserialisation error: Expecting value" 0 "now-2" "id-3"
      "now-4") := rfl
  have hkey : keyDeserializer garbledDeadLetter.key = .ok (some "acct-1") :=
    keyDeserializer_toUTF8 (by decide)
  have hr := DLQHandler.recovers_deadLetter hwf hvalue hkey
  refine ⟨List.mem_singleton.mpr rfl, ?_, ⟨_, _, _, _, "", "", hr, ?_⟩⟩
  · have hbatch : DLQHandler.batchOf (Env.calm.withBatch [garbledDeadLetter])
        = [garbledDeadLetter] := rfl
    show _ ∈ published ((sampleDlq.replay CompactJson.compactJson "fraud.events" 100).run _ _).events
    rw [DLQHandler.published_replay_deadLetter rfl (Env.calm_healthy.withBatch _) hwf
      "fraud.events" 100 World.fresh hbatch hvalue hkey (sendable_str "acct-1")]
    exact List.mem_singleton.mpr rfl
  · rw [DLQHandler.rebuilt_fields]
    simp only [DLQHandler.toJson_normalise]
    rfl

theorem replayed_unparseable_garbled :
    garbledReplayed.value ≠ "not json".toUTF8 ∧
    ∃ e, EventEnvelope.fromJson CompactJson.compactJson (some garbledReplayed.value) = .ok e ∧
      e.eventType = .str "unknown" ∧
      ∀ (c' : FraudKafkaConsumer) (m' : Message) (env₂ : Env) (w₂ : World),
        m'.value = some garbledReplayed.value → c'.redis = true → env₂.RedisWorks →
        1 ≤ c'.maxRetries →
        w₂.2.redis.exist (env₂.clock w₂.1.ops)
          (FraudKafkaConsumer.dedupKey CompactJson.compactJson e.eventId) = false →
        ∃ r, ⟨.handlerFn e, r⟩ ∈ ((c'.processMessage CompactJson.compactJson m').run
          (perform env₂) w₂).events := by
  have hc : sampleConsumer.Started := FraudKafkaConsumer.started_connected _ rfl
  have hb : garbledMessage.value = some "not json".toUTF8 := rfl
  have hrouted : FraudKafkaConsumer.isDeserialiseError ⟨.jsonDecodeError, "Expecting value"⟩ = true :=
    rfl
  have hrecord : garbledDeadLetter.value = some garbledDeadValue := rfl
  have hback := @replayed_unparseable CompactJson.compactJson sampleConsumer hc garbledMessage _ hb
    _ fromJson_garbled hrouted Env.calm World.fresh _ _ _ garbled_sent sampleDlq 100
  exact hback _ _ hrecord garbled_replayedFrom

/-- The dead letter of a message that is no JSON is replayed as an event that no producer sent. -/
theorem garbled_comes_back_parsed :
    EventEnvelope.fromJson CompactJson.compactJson garbledMessage.value
      = .error ⟨.jsonDecodeError, "Expecting value"⟩ ∧
    ¬ ∀ p, sampleDlq.ReplayedFrom CompactJson.compactJson garbledMessage.topic 100
        (Env.calm.withBatch [garbledDeadLetter]) World.fresh garbledDeadLetter p →
      some p.value = garbledMessage.value := by
  refine ⟨fromJson_garbled, ?_⟩
  intro hclaim
  have hsame := hclaim garbledReplayed garbled_replayedFrom
  have hwf : garbledEnvelope.WF := badEnvelope_wf _ _ _
  have hvalue : garbledReplayed.value = garbledEnvelope.toJson CompactJson.compactJson := by
    rw [garbledReplayed]
  have hparse := EventEnvelope.fromJson_toJson CompactJson.compactJson hwf
  rw [← hvalue, hsame] at hparse
  cases fromJson_garbled.symm.trans hparse

end Unparseable

end FraudDetection.Kafka
