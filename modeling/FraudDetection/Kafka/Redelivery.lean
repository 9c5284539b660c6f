import FraudDetection.Kafka.Replay

/-!
# Redelivery of a replayed event

An event that ends up in the dead-letter topic is marked as processed all the same. This module
follows it through a replay and a second delivery to a consumer of the group: the handler is called
on it again exactly when the marker is no longer visible.
-/

namespace FraudDetection.Kafka

open Async Python Store

namespace DLQHandler

variable {py : PyLib} {h : DLQHandler}

/-! ## Replay and Redis -/

theorem asks_getOrElse {ok : Op → Prop} (v : Json) (key : String) {default : Async String}
    (hd : default.Asks ok) : (getOrElse v key default).Asks ok := by
  unfold getOrElse
  refine (Prog.asks_lift _).bind fun fs => ?_
  exact hd.bind fun d => trivial

/-- Replaying one record asks for two defaults and one send at most. -/
theorem asks_replayRecord (topic : String) (record : Record) :
    (h.replayRecord py topic record).Asks fun op => op.isSet = false := by
  unfold replayRecord
  refine (Prog.asks_lift _).bind fun wrapper => (Prog.asks_lift _).bind fun data => ?_
  have hrebuild : (rebuild data).Asks fun op => op.isSet = false := by
    unfold rebuild
    have huuid : (await .uuid4).Asks fun op => op.isSet = false := Prog.asks_await rfl
    have hnow : (await .isoNow).Asks fun op => op.isSet = false := Prog.asks_await rfl
    refine (asks_getOrElse _ _ huuid).bind fun id => ?_
    refine (Prog.asks_lift _).bind fun ty => (Prog.asks_lift _).bind fun src => ?_
    refine (Prog.asks_lift _).bind fun corr => ?_
    refine (asks_getOrElse _ _ hnow).bind fun ts => ?_
    exact (Prog.asks_lift _).bind fun payload => trivial
  refine hrebuild.bind fun e => (Prog.asks_lift _).bind fun key => ?_
  exact asks_publish _ _ _ _ rfl

/-- Replay never writes to Redis. -/
theorem asks_replay (topic : String) (batchSize : ℕ) :
    (h.replay py topic batchSize).Asks fun op => op.isSet = false := by
  have hloop : ∀ records replayed,
      (h.replayRecords py topic records replayed).Asks fun op => op.isSet = false := by
    intro records
    induction records with
    | nil => exact fun _ => trivial
    | cons record records ih =>
        intro replayed
        refine Prog.Asks.bind (Prog.Asks.tryExcept ?_ fun _ => trivial) ih
        exact (asks_replayRecord topic record).bind fun _ => trivial
  unfold replay
  refine Prog.Asks.tryFinally ?_ (Prog.asks_await rfl)
  refine Prog.Asks.bind (Prog.asks_await rfl) fun _ => ?_
  refine Prog.Asks.bind (Prog.asks_await rfl) fun batch => ?_
  refine (hloop batch.flatten 0).bind fun k => ?_
  exact Prog.Asks.bind (Prog.asks_await rfl) fun _ => trivial

theorem redis_replay (topic : String) (batchSize : ℕ) (env : Env) (k : Counters) (cl : Cluster) :
    ((h.replay py topic batchSize).run (perform env) (k, cl)).final.2.redis = cl.redis :=
  redis_of_asks (asks_replay topic batchSize) env (k, cl)

/-- `p` is what a replay published for `record`. -/
structure ReplayedFrom (py : PyLib) (h : DLQHandler) (topic : String) (batchSize : ℕ) (env : Env)
    (w : World) (record : Record) (p : ProducerRecord) : Prop where
  record_mem : record ∈ batchOf env
  sent : p ∈ published ((h.replay py topic batchSize).run (perform env) w).events
  event : Republishes py topic record p

end DLQHandler

/-! ## The first delivery -/

section FirstDelivery

variable {py : PyLib} {c : FraudKafkaConsumer} {env : Env} {w : World} {m : Message}
  {e : EventEnvelope} {topic : String} {key : Json} {value : ByteArray} {r : Except Exn Unit}

/-- Failed attempts send nothing. -/
theorem Failures.not_sent {n : ℕ} {es : List Event} (hf : Failures e n es) :
    ⟨.sendAndWait topic key value, r⟩ ∉ es := by
  induction hf with
  | nil => simp
  | fail _ _ ih =>
      intro hmem
      rcases List.mem_cons.mp hmem with hev | hmem
      · cases hev
      · exact ih hmem
  | sleep _ ih =>
      intro hmem
      rcases List.mem_cons.mp hmem with hev | hmem
      · cases hev
      · exact ih hmem

/-- What the handling of a message sends is a dead letter for its event. -/
theorem Outcome.deadLetter {h : DLQHandler} {n : ℕ} {es : List Event}
    (ho : Outcome py c h m e n (.ok ()) es) (hsent : ⟨.sendAndWait topic key value, r⟩ ∈ es) :
    ∃ msg n failedAt id ts,
      value = DLQHandler.deadLetter py m.topic e msg n failedAt id ts := by
  rcases ho with ⟨k, fs, -, hfs, rfl⟩ | ⟨rep, ⟨fs, ds, msg, hfs, rfl, hds⟩, -⟩
  · -- where the handler returned nothing was sent
    rcases List.mem_append.mp hsent with hmem | hmem
    · exact absurd hmem hfs.not_sent
    · cases List.mem_singleton.mp hmem
  · rcases List.mem_append.mp hsent with hmem | hmem
    · exact absurd hmem hfs.not_sent
    · obtain ⟨failedAt, id, ts, rfl⟩ := hds
      simp only [List.mem_cons, List.not_mem_nil, or_false] at hmem
      rcases hmem with hev | hev | hev | hev
      · cases hev
      · cases hev
      · cases hev
      · cases hev
        exact ⟨msg, _, failedAt, id, ts, rfl⟩

/-- A message whose processing ends in the dead-letter topic is marked as processed, and what was
sent there carries its event. -/
theorem marked_of_deadLettered (hc : c.Started) (hredis : c.redis = true) (hw : env.RedisWorks)
    (httl : 0 < c.dedupTtl) (he : EventEnvelope.fromJson py m.value = .ok e)
    (hok : ((c.processMessage py m).run (perform env) w).result = .ok ())
    (hdead : ⟨.sendAndWait topic key value, r⟩ ∈
      ((c.processMessage py m).run (perform env) w).events) :
    (∃ msg n failedAt id ts,
      value = DLQHandler.deadLetter py m.topic e msg n failedAt id ts) ∧
    ∃ st ∈ ((c.processMessage py m).run (perform env) w).steps,
      st.event = ⟨.redisSet (FraudKafkaConsumer.dedupKey py e.eventId) "1" c.dedupTtl, .ok ()⟩ ∧
      ((c.processMessage py m).run (perform env) w).final.2.redis
          (FraudKafkaConsumer.dedupKey py e.eventId)
        = some ⟨"1", some (env.clock st.pre.1.ops + c.dedupTtl)⟩ := by
  rw [FraudKafkaConsumer.processMessage_of_ok py c he] at hok hdead ⊢
  have hmark := not_exist_of_sent py hredis hw hdead
  refine ⟨?_, marks_of_accepted py hredis hw httl hmark hok⟩
  obtain ⟨h, hh, hp⟩ := hc.dlqHandler
  obtain ⟨hhandle, hsteps, -⟩ := run_accepted_ok py hredis hw httl hmark hok
  have ho : Outcome py c h m e c.maxRetries (.ok ())
      ((c.handleWithRetry py m e).run (perform env) w.tick).events := by
    rw [← hhandle]
    exact outcome_handleWithRetry py hh hp m e
  -- neither Redis nor the commit sends anything
  unfold Execution.events at hdead
  rw [hsteps] at hdead
  simp only [List.map_cons, List.map_append, List.mem_cons, List.mem_append] at hdead
  rcases hdead with hev | hmem | hev | hmem
  · cases hev
  · exact ho.deadLetter hmem
  · cases hev
  · cases commitOffset_events hmem

end FirstDelivery

/-! ## The second delivery -/

/-- An event whose handling ended in the dead-letter topic is marked as processed. When a replay
republishes it and a consumer receives it again, the handler is called exactly when no marker of its
id is visible; if nobody else wrote the marker in the meantime, that is when the dedup TTL has
passed since the event was marked. -/
theorem redelivered_iff (py : PyLib) {c c' : FraudKafkaConsumer} (hc : c.Started)
    (hredis : c.redis = true) (hredis' : c'.redis = true) (httl : 0 < c.dedupTtl)
    (hn : 1 ≤ c'.maxRetries)
    -- the first delivery ends in the dead-letter topic
    {env : Env} (hw : env.RedisWorks) {w : World} {m : Message} {e : EventEnvelope}
    (he : EventEnvelope.fromJson py m.value = .ok e)
    (hok : ((c.processMessage py m).run (perform env) w).result = .ok ())
    {dlqTopic : String} {key : Json} {value : ByteArray}
    (hdead : ⟨.sendAndWait dlqTopic key value, .ok ()⟩ ∈
      ((c.processMessage py m).run (perform env) w).events)
    -- a replay republishes the dead letter
    (h : DLQHandler) (batchSize : ℕ) (env₁ : Env) (k₁ : Counters) (cl₁ : Cluster) {record : Record}
    (hrecord : record.value = some value) {p : ProducerRecord}
    (hp : h.ReplayedFrom py m.topic batchSize env₁ (k₁, cl₁) record p)
    -- and a consumer of the group receives what it published
    {env₂ : Env} (hw₂ : env₂.RedisWorks) (k₂ : Counters) (cl₂ : Cluster) (m' : Message)
    (hm' : m'.value = some p.value) :
    let dedup := FraudKafkaConsumer.dedupKey py e.eventId
    let called := ∃ r, ⟨.handlerFn e.normalise, r⟩ ∈
      ((c'.processMessage py m').run (perform env₂) (k₂, cl₂)).events
    (called ↔ cl₂.redis.exist (env₂.clock k₂.ops) dedup = false) ∧
    ∃ st ∈ ((c.processMessage py m).run (perform env) w).steps,
      st.event = ⟨.redisSet dedup "1" c.dedupTtl, .ok ()⟩ ∧
      (cl₁.redis dedup = ((c.processMessage py m).run (perform env) w).final.2.redis dedup →
        cl₂.redis dedup = ((h.replay py m.topic batchSize).run (perform env₁)
          (k₁, cl₁)).final.2.redis dedup →
        (called ↔ env.clock st.pre.1.ops + c.dedupTtl < env₂.clock k₂.ops)) := by
  intro dedup called
  obtain ⟨⟨msg, n, failedAt, id, ts, rfl⟩, st, hst, hev, hmarked⟩ :=
    marked_of_deadLettered hc hredis hw httl he hok hdead
  have hwf : e.WF := EventEnvelope.WF.of_fromJson he
  have he' : EventEnvelope.fromJson py m'.value = .ok e.normalise := by
    obtain ⟨fs, t, s, recordKey, id', ts', hr, hpub⟩ := hp.event
    have hpeq := hp.event.eq_of_deadLetter hwf hrecord hr.key
    rw [hm', hpeq]
    exact EventEnvelope.fromJson_toJson py hwf
  have hcalled : called ↔ cl₂.redis.exist (env₂.clock k₂.ops) dedup = false := by
    have hiff := handler_called_iff py (w := (k₂, cl₂)) hredis' hw₂ hn m' e.normalise
    simp only [called]
    rw [FraudKafkaConsumer.processMessage_of_ok py c' he']
    exact hiff
  refine ⟨hcalled, st, hst, hev, fun h₁ h₂ => ?_⟩
  have hentry : cl₂.redis dedup = some ⟨"1", some (env.clock st.pre.1.ops + c.dedupTtl)⟩ := by
    rw [h₂, DLQHandler.redis_replay, h₁]
    exact hmarked
  rw [hcalled, Keyspace.exist_of_deadline hentry]
  simp

/-! ## The sample event, failed and replayed -/

/-- The first delivery of `sampleMessage`, to a handler that fails. -/
def failedRun : Execution World Op.Ret Exn Unit :=
  (sampleConsumer.processMessage CompactJson.compactJson sampleMessage).run (perform raisingEnv)
    World.fresh

/-- The replay of its dead letter. -/
def replayRun : Execution World Op.Ret Exn ℕ :=
  (sampleDlq.replay CompactJson.compactJson sampleMessage.topic 100).run
    (perform DLQHandler.sampleBatchEnv) (World.fresh.1, failedRun.final.2)

/-- What the replay publishes, as a message. -/
def replayedMessage : Message :=
  ⟨"fraud.events", some "acct-1", some (sampleEvent.toJson CompactJson.compactJson), 1⟩

/-- Its delivery to the consumer, at the time of the first one. -/
def redeliveredRun : Execution World Op.Ret Exn Unit :=
  (sampleConsumer.processMessage CompactJson.compactJson replayedMessage).run (perform Env.calm)
    (World.fresh.1, replayRun.final.2)

theorem failedRun_ok : ((sampleConsumer.processMessage CompactJson.compactJson sampleMessage).run
    (perform raisingEnv) World.fresh).result = .ok () := by
  rw [processMessage_sample]
  rfl

theorem failedRun_dead : ⟨.sendAndWait "fraud.events.dlq" (.str "acct-1")
    (DLQHandler.deadLetter CompactJson.compactJson "fraud.events" sampleEvent "boom" 1
      "now-2" "id-3" "now-4"), .ok ()⟩ ∈
    ((sampleConsumer.processMessage CompactJson.compactJson sampleMessage).run
      (perform raisingEnv) World.fresh).events := by
  rw [processMessage_sample]
  exact .tail _ (.tail _ (.tail _ (.tail _ (.tail _ (.head _)))))

theorem replayRun_published : published replayRun.events
    = [⟨sampleMessage.topic, .str "acct-1", sampleEvent.toJson CompactJson.compactJson⟩] := by
  have henv : DLQHandler.sampleBatchEnv.Healthy := ⟨⟨fun _ _ => rfl⟩, fun _ => rfl⟩
  have hbatch : DLQHandler.batchOf DLQHandler.sampleBatchEnv = [sampleDeadLetter] := rfl
  exact DLQHandler.published_replay_deadLetter rfl henv sampleEvent_wf sampleMessage.topic 100 _
    hbatch sampleDeadLetter_value sampleDeadLetter_key (sendable_str "acct-1")

theorem replayRun_replayed : sampleDlq.ReplayedFrom CompactJson.compactJson sampleMessage.topic 100
    DLQHandler.sampleBatchEnv (World.fresh.1, failedRun.final.2) sampleDeadLetter
    ⟨sampleMessage.topic, .str "acct-1", sampleEvent.toJson CompactJson.compactJson⟩ := by
  have hr := DLQHandler.recovers_deadLetter sampleEvent_wf sampleDeadLetter_value
    sampleDeadLetter_key
  refine ⟨List.mem_singleton.mpr rfl, ?_, ⟨_, _, _, _, "", "", hr, rfl⟩⟩
  show _ ∈ published replayRun.events
  rw [replayRun_published]
  exact List.mem_singleton.mpr rfl

theorem sampleConsumer_started : sampleConsumer.Started :=
  FraudKafkaConsumer.started_connected _ rfl

theorem raisingEnv_redisWorks : raisingEnv.RedisWorks :=
  ⟨fun _ _ => rfl, fun _ _ _ _ => rfl⟩

/-- At the time of the replay the marker still has its full TTL to go. -/
theorem redelivered_iff_sample :
    ∃ st ∈ failedRun.steps,
      ((∃ r, ⟨.handlerFn sampleEvent.normalise, r⟩ ∈ redeliveredRun.events) ↔
        raisingEnv.clock st.pre.1.ops + sampleConsumer.dedupTtl
          < Env.calm.clock World.fresh.1.ops) := by
  have hmessage : replayedMessage.value = some (sampleEvent.toJson CompactJson.compactJson) := rfl
  have hredis : sampleConsumer.redis = true := rfl
  obtain ⟨-, st, hst, -, hiff⟩ := redelivered_iff CompactJson.compactJson
    (c := sampleConsumer) (m := sampleMessage) (e := sampleEvent) sampleConsumer_started hredis
    hredis (by decide) (by decide) raisingEnv_redisWorks fromJson_sampleMessage failedRun_ok
    failedRun_dead sampleDlq 100 DLQHandler.sampleBatchEnv World.fresh.1 failedRun.final.2
    sampleDeadLetter_value replayRun_replayed Env.calm_healthy.redisWorks
    World.fresh.1 replayRun.final.2 replayedMessage (by dsimp only; exact hmessage)
  exact ⟨st, hst, hiff (by rw [failedRun]) (by rw [replayRun])⟩

/-- While its marker is visible the sample event is skipped. -/
theorem skipped_of_marked (k : Counters) (cl : Cluster) (d : ℚ) (hd : Env.calm.clock k.ops ≤ d)
    (hentry : cl.redis (FraudKafkaConsumer.dedupKey CompactJson.compactJson sampleEvent.eventId)
      = some ⟨"1", some d⟩) :
    ¬ ∃ r, ⟨.handlerFn sampleEvent, r⟩ ∈ ((sampleConsumer.processMessage CompactJson.compactJson
      replayedMessage).run (perform Env.calm) (k, cl)).events := by
  have hparse : EventEnvelope.fromJson CompactJson.compactJson replayedMessage.value
      = .ok sampleEvent := EventEnvelope.fromJson_toJson _ sampleEvent_wf
  have hredis : sampleConsumer.redis = true := rfl
  rw [FraudKafkaConsumer.processMessage_of_ok _ _ hparse,
    handler_called_iff _ hredis Env.calm_healthy.redisWorks (by decide),
    Keyspace.exist_of_deadline hentry, decide_eq_false_iff_not, not_not]
  exact hd

/-- The replayed event is skipped as a duplicate: the handler is not called on it again. -/
theorem replayed_event_skipped :
    failedRun.result = .ok () ∧
    (∃ key value, ⟨.sendAndWait "fraud.events.dlq" key value, .ok ()⟩ ∈ failedRun.events) ∧
    published replayRun.events
      = [⟨sampleMessage.topic, .str "acct-1", sampleEvent.toJson CompactJson.compactJson⟩] ∧
    ¬ ∃ r, ⟨.handlerFn sampleEvent, r⟩ ∈ redeliveredRun.events := by
  refine ⟨failedRun_ok, ⟨_, _, failedRun_dead⟩, replayRun_published, ?_⟩
  have hredis : sampleConsumer.redis = true := rfl
  obtain ⟨-, st, -, -, hmarked⟩ := marked_of_deadLettered (c := sampleConsumer) (m := sampleMessage)
    (e := sampleEvent) sampleConsumer_started hredis raisingEnv_redisWorks (by decide)
    fromJson_sampleMessage failedRun_ok failedRun_dead
  refine skipped_of_marked World.fresh.1 replayRun.final.2
    (raisingEnv.clock st.pre.1.ops + sampleConsumer.dedupTtl) ?_ ?_
  · show (0 : ℚ) ≤ 0 + ((86400 : ℤ) : ℚ)
    simp
  · rw [← hmarked, replayRun, DLQHandler.redis_replay, failedRun]

end FraudDetection.Kafka
