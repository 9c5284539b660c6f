import FraudDetection.Kafka.Traces

/-!
# Runs of the consumer against the world

What the Redis steps of `_process_message` do to the cluster, and what the rest of it leaves alone.
The traces of the previous module say which operations a part awaits; here they are run against
`perform`.
-/

namespace FraudDetection.Kafka

open Async Python Store

/-! ## Environments -/

/-- Redis answers every call of this process. -/
structure Env.RedisWorks (env : Env) : Prop where
  exists_ok : ∀ n key, env.fault n (.redisExists key) = none
  set_ok : ∀ n key v ex, env.fault n (.redisSet key v ex) = none

/-- Every call goes through, except that a handler call or a send may fail. -/
structure Env.Reliable (env : Env) : Prop where
  fault : ∀ n op, env.fault n op = none

/-- Every call goes through, and the broker accepts every send. -/
structure Env.Healthy (env : Env) : Prop extends env.Reliable where
  send : ∀ n, env.send n = none

theorem Env.calm_healthy : Env.calm.Healthy := ⟨⟨fun _ _ => rfl⟩, fun _ => rfl⟩

theorem Env.Healthy.withBatch {env : Env} (h : env.Healthy) (records : List Record) :
    (env.withBatch records).Healthy := ⟨⟨h.fault⟩, h.send⟩

theorem Env.Reliable.redisWorks {env : Env} (h : env.Reliable) : env.RedisWorks :=
  ⟨fun n _ => h.fault n _, fun n _ _ _ => h.fault n _⟩

/-! ## What a run leaves alone -/

/-- Only `SET` writes to Redis. -/
def Op.isSet : Op → Bool
  | .redisSet _ _ _ => true
  | _ => false

theorem perform_redis_of_not_isSet {env : Env} {op : Op} {w : World} (h : op.isSet = false) :
    (perform env op w).2.2.redis = w.2.redis := by
  rcases perform_redis env op w with heq | ⟨key, v, ex, rfl, -⟩
  · exact heq
  · cases h

/-- A computation that never asks for `SET` leaves Redis as it was. -/
theorem redis_of_asks {α : Type} {p : Async α} (hp : p.Asks fun op => op.isSet = false) (env : Env)
    (w : World) : (p.run (perform env) w).final.2.redis = w.2.redis := by
  refine Prog.final_of_steps (fun w : World => w.2.redis) ?_
  intro st hst
  exact perform_redis_of_not_isSet (hp.run _ _ _ (List.mem_map_of_mem hst))

theorem Handling.not_isSet (op : Op) (h : Handling op) : op.isSet = false := by
  cases op with
  | redisSet => exact h.elim
  | _ => rfl

/-- The operation count never falls during a run. -/
theorem ops_le_final {α : Type} (p : Async α) (env : Env) (w : World) :
    w.1.ops ≤ (p.run (perform env) w).final.1.ops := by
  induction p generalizing w with
  | pure a => exact le_refl _
  | raise e => exact le_refl _
  | call op k ih =>
      have hrest := ih (perform env op w).1 (perform env op w).2
      rw [perform_counters, Counters.after_ops] at hrest
      simp only [Prog.run]
      omega

/-! ## What raises -/

/-- Every send is under a key that the Kafka client takes. -/
def Op.Keyed : Op → Prop
  | .sendAndWait _ key _ => Sendable key
  | _ => True

/-- Where only the handler and the broker fail, and the handler with an `Exception`, the only
failure the consumer does not catch is one of a send. -/
theorem absorbs_of_perform_error {env : Env} (henv : env.Reliable)
    (hexc : ∀ k x, env.handler k = some x → x.isException = true) {op : Op} {w : World} {x : Exn}
    (hop : op.Keyed) (hx : (perform env op w).1 = .error x) :
    op.absorbs x = true ∨ env.send w.1.sends = some x := by
  cases op with
  | redisSet key v ex =>
      by_cases hex : ex ≤ 0
      · simp only [perform, henv.fault, orFault_none, hex, if_true, Except.error.injEq] at hx
        subst hx
        exact Or.inl rfl
      · simp [perform, henv.fault, hex] at hx
  | handlerFn e =>
      cases hf : env.handler w.1.handled with
      | none => simp [perform, hf] at hx
      | some y =>
          simp only [perform, hf, orFault_some, Except.error.injEq] at hx
          subst hx
          exact Or.inl (hexc _ _ hf)
  | sendAndWait t k v =>
      have hsent := env.sent_of_sendable hop w.1.sends
      cases hf : env.send w.1.sends with
      | none => simp [perform, hsent, hf] at hx
      | some y =>
          simp only [perform, hsent, hf, orFault_some, Except.error.injEq] at hx
          subst hx
          exact Or.inr rfl
  | running => cases hx
  | uuid4 => cases hx
  | isoNow => cases hx
  | _ => simp [perform, henv.fault] at hx

/-- In a run in a healthy environment no event is fatal. -/
theorem not_raisedBy {α : Type} {p : Async α} (hp : p.Asks Op.Keyed) {env : Env}
    (henv : env.Healthy) (hexc : ∀ k x, env.handler k = some x → x.isException = true) {w : World}
    {x : Exn} :
    ¬ RaisedBy (p.run (perform env) w).events x := by
  rintro ⟨ev, hev, hreply, habs⟩
  have hkeyed := hp.run _ _ ev hev
  obtain ⟨st, hst, rfl⟩ := List.mem_map.mp hev
  rw [Prog.reply_of_mem hst] at hreply
  rcases absorbs_of_perform_error henv.toReliable hexc hkeyed hreply with habs' | hsend
  · rw [habs'] at habs
    cases habs
  · rw [henv.send] at hsend
    cases hsend

/-- In a healthy environment the broker accepts what is sent. -/
theorem send_ok_of_mem {α : Type} {p : Async α} (hp : p.Asks Op.Keyed) {env : Env}
    (henv : env.Healthy) {w : World} {topic : String} {key : Json} {value : ByteArray}
    {r : Except Exn Unit}
    (hev : ⟨.sendAndWait topic key value, r⟩ ∈ (p.run (perform env) w).events) : r = .ok () := by
  have hkey : Sendable key := hp.run _ _ _ hev
  obtain ⟨⟨pre, op, reply⟩, hst, hev⟩ := List.mem_map.mp hev
  cases hev
  have hreply : r = (perform env (.sendAndWait topic key value) pre).1 := Prog.reply_of_mem hst
  rw [hreply]
  simp [perform, env.sent_of_sendable hkey, henv.send]

/-- The key of a message, or else a text. -/
theorem sendable_orElse (k : Option String) (s : String) : Sendable (orElse k (.str s)) := by
  cases k with
  | none => exact sendable_str s
  | some k =>
      show Sendable ((Json.str k).or (.str s))
      unfold Json.or
      split
      · exact sendable_str k
      · exact sendable_str s

variable (py : PyLib) {c : FraudKafkaConsumer} {env : Env} {w : World}

/-- The handling of a message sends under its key, or else under the id of its event. -/
theorem asks_keyed_handleWithRetry {m : Message} {e : EventEnvelope}
    (hkey : Sendable (orElse m.key e.eventId)) : (c.handleWithRetry py m e).Asks Op.Keyed := by
  unfold FraudKafkaConsumer.handleWithRetry
  apply asks_attempts
  case hsend => exact fun _ _ => hkey
  case hsleep => exact fun _ => trivial
  all_goals trivial

/-- Handling a message leaves Redis as it was. -/
theorem redis_handleWithRetry (hc : c.Started) (m : Message) (e : EventEnvelope) :
    ((c.handleWithRetry py m e).run (perform env) w).final.2.redis = w.2.redis := by
  obtain ⟨h, hh, hp⟩ := hc.dlqHandler
  exact redis_of_asks ((emits_handleWithRetry hh hp m e).asks.mono Handling.not_isSet) env w

/-- The outcome of a run of `_handle_with_retry`. -/
theorem outcome_handleWithRetry {h : DLQHandler} (hh : c.dlqHandler = some h)
    (hp : h.producer.started = true) (m : Message) (e : EventEnvelope) :
    Outcome py c h m e c.maxRetries ((c.handleWithRetry py m e).run (perform env) w).result
      ((c.handleWithRetry py m e).run (perform env) w).events := by
  have hemits : Emits Handling (fun _ => True) (c.handleWithRetry py m e)
      (Outcome py c h m e c.maxRetries) := emits_handleWithRetry hh hp m e
  exact hemits.run (perform env) w fun _ _ => trivial

/-- A commit does not touch the cluster. -/
theorem cluster_commitOffset : (c.commitOffset.run (perform env) w).final.2 = w.2 := by
  unfold FraudKafkaConsumer.commitOffset
  split
  · rw [Prog.run_await]
    cases hf : env.fault w.1.ops .commit <;> simp [perform, hf]
  · rfl

/-- The only thing a commit asks for is the commit. -/
theorem commitOffset_events {ev : Event} (hev : ev ∈ (c.commitOffset.run (perform env) w).events) :
    ev.op = .commit := by
  unfold FraudKafkaConsumer.commitOffset at hev
  split at hev
  · rw [Prog.events_await, List.mem_singleton] at hev
    rw [hev]
  · cases hev

/-! ## The Redis steps -/

/-- With Redis working, the duplicate check answers whether the id's marker is visible. -/
theorem run_isDuplicate (hredis : c.redis = true) (hw : env.RedisWorks) (id : Json) :
    (c.isDuplicate py id).run (perform env) w =
      let b := w.2.redis.exist (env.clock w.1.ops) (FraudKafkaConsumer.dedupKey py id)
      ⟨.ok b, [⟨w, ⟨.redisExists (FraudKafkaConsumer.dedupKey py id), .ok b⟩⟩], w.tick⟩ := by
  simp [FraudKafkaConsumer.isDuplicate, hredis, Prog.run_tryExcept, perform, hw.exists_ok]

/-- The world after the marker of `key` has been written. -/
def World.mark (w : World) (env : Env) (key : String) (ttl : ℤ) : World :=
  (w.tick.1, { w.2 with redis := w.2.redis.set key "1" (some (env.clock w.1.ops + ttl)) })

/-- With Redis working, an event id is marked for the dedup TTL. -/
theorem run_markProcessed (hredis : c.redis = true) (hw : env.RedisWorks) (httl : 0 < c.dedupTtl)
    (id : Json) :
    (c.markProcessed py id).run (perform env) w =
      ⟨.ok (), [⟨w, ⟨.redisSet (FraudKafkaConsumer.dedupKey py id) "1" c.dedupTtl, .ok ()⟩⟩],
        w.mark env (FraudKafkaConsumer.dedupKey py id) c.dedupTtl⟩ := by
  have hpos : ¬ c.dedupTtl ≤ 0 := by omega
  simp [FraudKafkaConsumer.markProcessed, hredis, Prog.run_tryExcept, perform, hw.set_ok, hpos,
    World.mark]

/-- Where no call fails, marking an event returns: a `SET` that Redis refuses is logged. -/
theorem result_markProcessed (henv : env.Reliable) (id : Json) :
    ((c.markProcessed py id).run (perform env) w).result = .ok () := by
  unfold FraudKafkaConsumer.markProcessed
  split
  · rfl
  · rw [Prog.run_tryExcept, Prog.run_await]
    by_cases hex : c.dedupTtl ≤ 0
    · simp [perform, henv.fault, hex, Exn.isException]
    · simp [perform, henv.fault, hex]

/-- Where no call fails, a commit returns. -/
theorem result_commitOffset (henv : env.Reliable) :
    (c.commitOffset.run (perform env) w).result = .ok () := by
  unfold FraudKafkaConsumer.commitOffset
  split
  · rw [Prog.run_await]
    simp [perform, henv.fault]
  · rfl

/-! ## An accepted message -/

/-- An event whose id is visibly marked is skipped. -/
theorem run_accepted_of_exist (hredis : c.redis = true) (hw : env.RedisWorks) {m : Message}
    {e : EventEnvelope}
    (hmark : w.2.redis.exist (env.clock w.1.ops) (FraudKafkaConsumer.dedupKey py e.eventId) = true) :
    let y := c.commitOffset.run (perform env) w.tick
    (c.accepted py m e).run (perform env) w =
      ⟨y.result,
        ⟨w, ⟨.redisExists (FraudKafkaConsumer.dedupKey py e.eventId), .ok true⟩⟩ :: y.steps,
        y.final⟩ := by
  intro y
  unfold FraudKafkaConsumer.accepted
  rw [Prog.run_bind, run_isDuplicate py hredis hw]
  simp [hmark, y]

theorem events_accepted_of_exist (hredis : c.redis = true) (hw : env.RedisWorks) {m : Message}
    {e : EventEnvelope}
    (hmark : w.2.redis.exist (env.clock w.1.ops) (FraudKafkaConsumer.dedupKey py e.eventId) = true) :
    ((c.accepted py m e).run (perform env) w).events =
      ⟨.redisExists (FraudKafkaConsumer.dedupKey py e.eventId), .ok true⟩ ::
        (c.commitOffset.run (perform env) w.tick).events := by
  rw [run_accepted_of_exist py hredis hw hmark]
  rfl

/-- The world in which the handling of an unmarked event starts is one tick on. -/
theorem run_accepted_of_not_exist (hredis : c.redis = true) (hw : env.RedisWorks) {m : Message}
    {e : EventEnvelope}
    (hmark : w.2.redis.exist (env.clock w.1.ops) (FraudKafkaConsumer.dedupKey py e.eventId)
      = false) :
    let y := (do
      c.handleWithRetry py m e
      c.markProcessed py e.eventId
      c.commitOffset : Async Unit).run (perform env) w.tick
    (c.accepted py m e).run (perform env) w =
      ⟨y.result,
        ⟨w, ⟨.redisExists (FraudKafkaConsumer.dedupKey py e.eventId), .ok false⟩⟩ :: y.steps,
        y.final⟩ := by
  intro y
  unfold FraudKafkaConsumer.accepted
  rw [Prog.run_bind, run_isDuplicate py hredis hw]
  simp [hmark, y]

/-- An event whose id is not visibly marked is handed to the handler. -/
theorem handler_called_of_not_exist (hredis : c.redis = true) (hw : env.RedisWorks)
    (hn : 1 ≤ c.maxRetries) {m : Message} {e : EventEnvelope}
    (hmark : w.2.redis.exist (env.clock w.1.ops) (FraudKafkaConsumer.dedupKey py e.eventId)
      = false) :
    ∃ r, ⟨.handlerFn e, r⟩ ∈ ((c.accepted py m e).run (perform env) w).events := by
  obtain ⟨n, hn⟩ : ∃ n, c.maxRetries = n + 1 := ⟨c.maxRetries - 1, by omega⟩
  have hcall : (⟨.handlerFn e, (perform env (.handlerFn e) w.tick).1⟩ : Event) ∈
      ((FraudKafkaConsumer.tryHandler e).run (perform env) w.tick).events := by
    unfold FraudKafkaConsumer.tryHandler
    apply Prog.mem_events_tryExcept
    apply Prog.mem_events_bind
    rw [Prog.run_await]
    exact List.mem_singleton.mpr rfl
  have hhandle : (⟨.handlerFn e, (perform env (.handlerFn e) w.tick).1⟩ : Event) ∈
      ((c.handleWithRetry py m e).run (perform env) w.tick).events := by
    unfold FraudKafkaConsumer.handleWithRetry
    rw [hn, FraudKafkaConsumer.attempts]
    exact Prog.mem_events_bind _ _ hcall
  refine ⟨(perform env (.handlerFn e) w.tick).1, ?_⟩
  rw [run_accepted_of_not_exist py hredis hw hmark]
  exact List.mem_cons_of_mem _ (Prog.mem_events_bind _ _ hhandle)

/-- Whether the handler is called on an event is decided by the visibility of the id's marker. -/
theorem handler_called_iff (hredis : c.redis = true) (hw : env.RedisWorks) (hn : 1 ≤ c.maxRetries)
    (m : Message) (e : EventEnvelope) :
    (∃ r, ⟨.handlerFn e, r⟩ ∈ ((c.accepted py m e).run (perform env) w).events) ↔
      w.2.redis.exist (env.clock w.1.ops) (FraudKafkaConsumer.dedupKey py e.eventId) = false := by
  refine ⟨?_, handler_called_of_not_exist py hredis hw hn⟩
  rintro ⟨r, hr⟩
  by_contra hmark
  rw [Bool.not_eq_false] at hmark
  rw [events_accepted_of_exist py hredis hw hmark] at hr
  rcases List.mem_cons.mp hr with hev | hev
  · cases hev
  · cases commitOffset_events hev

/-- An event that was sent anywhere was not skipped. -/
theorem not_exist_of_sent (hredis : c.redis = true) (hw : env.RedisWorks) {m : Message}
    {e : EventEnvelope} {topic : String} {key : Json} {value : ByteArray} {r : Except Exn Unit}
    (hsent : ⟨.sendAndWait topic key value, r⟩ ∈ ((c.accepted py m e).run (perform env) w).events) :
    w.2.redis.exist (env.clock w.1.ops) (FraudKafkaConsumer.dedupKey py e.eventId) = false := by
  by_contra hmark
  rw [Bool.not_eq_false] at hmark
  rw [events_accepted_of_exist py hredis hw hmark] at hsent
  rcases List.mem_cons.mp hsent with hev | hev
  · cases hev
  · cases commitOffset_events hev

/-- An unmarked event that is processed to its end is handled, marked and committed. -/
theorem run_accepted_ok (hredis : c.redis = true) (hw : env.RedisWorks) (httl : 0 < c.dedupTtl)
    {m : Message} {e : EventEnvelope}
    (hmark : w.2.redis.exist (env.clock w.1.ops) (FraudKafkaConsumer.dedupKey py e.eventId)
      = false)
    (hok : ((c.accepted py m e).run (perform env) w).result = .ok ()) :
    let x := (c.handleWithRetry py m e).run (perform env) w.tick
    let w' := x.final.mark env (FraudKafkaConsumer.dedupKey py e.eventId) c.dedupTtl
    x.result = .ok () ∧
    ((c.accepted py m e).run (perform env) w).steps =
      ⟨w, ⟨.redisExists (FraudKafkaConsumer.dedupKey py e.eventId), .ok false⟩⟩ :: (x.steps ++
        ⟨x.final, ⟨.redisSet (FraudKafkaConsumer.dedupKey py e.eventId) "1" c.dedupTtl, .ok ()⟩⟩ ::
          (c.commitOffset.run (perform env) w').steps) ∧
    ((c.accepted py m e).run (perform env) w).final = (c.commitOffset.run (perform env) w').final := by
  intro x w'
  rw [run_accepted_of_not_exist py hredis hw hmark] at hok ⊢
  simp only at hok ⊢
  obtain ⟨u, hhandle, -⟩ := Prog.result_bind_ok.mp hok
  rw [Prog.run_bind_of_ok hhandle]
  simp only
  rw [Prog.run_bind, run_markProcessed py hredis hw httl]
  exact ⟨hhandle, rfl, rfl⟩

/-- Processing an unmarked event to its end writes its marker. -/
theorem marks_of_accepted (hredis : c.redis = true) (hw : env.RedisWorks)
    (httl : 0 < c.dedupTtl) {m : Message} {e : EventEnvelope}
    (hmark : w.2.redis.exist (env.clock w.1.ops) (FraudKafkaConsumer.dedupKey py e.eventId)
      = false)
    (hok : ((c.accepted py m e).run (perform env) w).result = .ok ()) :
    ∃ st ∈ ((c.accepted py m e).run (perform env) w).steps,
      st.event = ⟨.redisSet (FraudKafkaConsumer.dedupKey py e.eventId) "1" c.dedupTtl, .ok ()⟩ ∧
      ((c.accepted py m e).run (perform env) w).final.2.redis
          (FraudKafkaConsumer.dedupKey py e.eventId)
        = some ⟨"1", some (env.clock st.pre.1.ops + c.dedupTtl)⟩ := by
  obtain ⟨-, hsteps, hfinal⟩ := run_accepted_ok py hredis hw httl hmark hok
  rw [hsteps, hfinal, cluster_commitOffset]
  refine ⟨_, List.mem_cons_of_mem _ (List.mem_append_right _ List.mem_cons_self), rfl, ?_⟩
  simp [World.mark]

end FraudDetection.Kafka
