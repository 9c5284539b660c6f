import FraudDetection.Kafka.Instances

/-!
# Several consumer groups over one Redis

Consumers of different groups receive the same events. The key of a marker is made of the event id
alone, so one group sees the markers of another.

Nothing but the answer to `EXISTS` connects a consumer to the cluster (`perform_agree`). A consumer
whose duplicate checks are answered as its own markers alone would answer them therefore does what
it does when no other consumer exists (`handler_calls_undisturbed`, from `System.exec_alone`). That
is so in particular where no other consumer receives an event with an id of its own events
(`handler_calls_of_distinct`).
-/

namespace FraudDetection.Kafka

open Async Python Store

/-! ## What a consumer sees of the cluster -/

/-- The reply to an operation and the progress it makes depend on the cluster through the answer to
`EXISTS` only. -/
theorem perform_agree (env : Env) (op : Op) (k : Counters) {t t' : Cluster}
    (h : ∀ key, op = .redisExists key →
      t.redis.exist (env.clock k.ops) key = t'.redis.exist (env.clock k.ops) key) :
    (perform env op (k, t)).1 = (perform env op (k, t')).1 ∧
      (perform env op (k, t)).2.1 = (perform env op (k, t')).2.1 := by
  refine ⟨?_, by rw [perform_counters, perform_counters]⟩
  cases op with
  | redisExists key =>
      have hsame := h key rfl
      cases hf : env.fault k.ops (.redisExists key) <;> simp [perform, hf, hsame]
  | redisSet key v ex =>
      by_cases hex : ex ≤ 0
      · cases hf : env.fault k.ops (.redisSet key v ex) <;> simp [perform, hf, hex]
      · cases hf : env.fault k.ops (.redisSet key v ex) <;> simp [perform, hf, hex]
  | handlerFn e => cases hf : env.handler k.handled <;> simp [perform, hf]
  | sendAndWait t k' v => cases hf : env.sent k.sends k' <;> simp [perform, hf]
  | running => rfl
  | uuid4 => rfl
  | isoNow => rfl
  | _ =>
      simp only [perform]
      cases env.fault _ _ <;> rfl

/-- The operation writes a marker under the key. -/
def Marks (key : String) (op : Op) : Prop := ∃ v ex, op = .redisSet key v ex

/-- Only a marker written under the key changes what Redis holds under it. -/
theorem redis_of_not_marks {key : String} {op : Op} (h : ¬ Marks key op) (env : Env) (w : World) :
    (perform env op w).2.2.redis key = w.2.redis key := by
  rcases perform_redis env op w with hsame | ⟨key', v, ex, rfl, -, -, hset⟩
  · rw [hsame]
  · have hne : key ≠ key' := by
      rintro rfl
      exact h ⟨v, ex, rfl⟩
    rw [hset, Keyspace.set_of_ne _ hne]

/-- What an operation leaves under a key depends on what was there before, not on other keys. -/
theorem redis_congr (env : Env) (op : Op) (k : Counters) {t t' : Cluster} {key : String}
    (h : t.redis key = t'.redis key) :
    (perform env op (k, t)).2.2.redis key = (perform env op (k, t')).2.2.redis key := by
  by_cases hmarks : Marks key op
  · obtain ⟨v, ex, rfl⟩ := hmarks
    by_cases hex : ex ≤ 0
    · cases hf : env.fault k.ops (.redisSet key v ex) <;> simp [perform, hf, hex, World.tick, h]
    · cases hf : env.fault k.ops (.redisSet key v ex) <;> simp [perform, hf, hex, World.tick, h]
  · rw [redis_of_not_marks hmarks, redis_of_not_marks hmarks]
    exact h

section Deployment

variable {ι : Type} [DecidableEq ι] (py : PyLib) (d : Deployment ι) (cl : Cluster) (a : ι)

/-- The cluster that the moves of consumer `a` alone would have left. -/
def aloneCluster (moves : Moves ι) : Cluster :=
  System.alone (fun i => perform (d.env i)) a cl moves

variable {d a}

/-- Where no other consumer marked a key, Redis holds under it what `a` alone would have left. -/
theorem redis_of_unmarked {moves : Moves ι} {key : String} {t t' : Cluster}
    (hunmarked : ∀ x ∈ moves, x.1 ≠ a → ¬ Marks key x.2.event.op)
    (h : t.redis key = t'.redis key) :
    (System.together (fun i => perform (d.env i)) t moves).redis key
      = (aloneCluster d t' a moves).redis key := by
  induction moves generalizing t t' with
  | nil => exact h
  | cons x moves ih =>
      have hrest : ∀ y ∈ moves, y.1 ≠ a → ¬ Marks key y.2.event.op :=
        fun y hy => hunmarked y (List.mem_cons_of_mem x hy)
      unfold aloneCluster at ih ⊢
      rw [System.together_cons, System.alone_cons]
      by_cases hx : x.1 = a
      · -- `a` leaves the same under the key on both clusters
        rw [if_pos hx, hx]
        exact ih hrest (redis_congr _ _ _ h)
      · -- another consumer writes no marker under the key
        rw [if_neg hx]
        have hkeep := redis_of_not_marks (hunmarked x List.mem_cons_self hx) (d.env x.1)
          (x.2.pre.1, t)
        exact ih hrest (hkeep.trans h)

/-- A key that no other consumer has marked is visible exactly if a marker of the consumer's own, or
one from before the run, is. -/
theorem visible_of_unmarked {schedule : List ι} {before after : Moves ι}
    {st : Step World Op.Ret Exn}
    (htrace : d.trace py cl schedule = before ++ (a, st) :: after) {key : String}
    (hunmarked : ∀ x ∈ before, x.1 ≠ a → ¬ Marks key x.2.event.op) :
    visible (d.env a) st key
      = (aloneCluster d cl a before).redis.exist ((d.env a).clock st.pre.1.ops) key := by
  have hpre := System.pre_of_trace _ htrace
  have hsame := redis_of_unmarked (d := d) (t := cl) hunmarked rfl
  unfold visible Keyspace.exist Keyspace.find?
  rw [hpre, ← hsame]
  rfl

/-! ## The events a handler is called on -/

/-- The event a handler call is on. -/
def invoked? (ev : Event) : Option EventEnvelope :=
  match ev.op with
  | .handlerFn e => some e
  | _ => none

/-- The events on which the handler of consumer `a` is invoked, in order. -/
def invocations (a : ι) (moves : Moves ι) : List EventEnvelope :=
  (System.eventsOf a moves).filterMap invoked?

/-- A consumer is invoked on the same events as in the run without all other consumers, as long as
at each of its duplicate checks a marker of the id is visible exactly if its own operations alone
would have left one. -/
theorem handler_calls_undisturbed (schedule : List ι)
    (hown : ∀ before st after, d.trace py cl schedule = before ++ (a, st) :: after →
      ∀ key, st.event.op = .redisExists key →
        visible (d.env a) st key
          = (aloneCluster d cl a before).redis.exist ((d.env a).clock st.pre.1.ops) key) :
    invocations a (d.trace py cl schedule)
      = invocations a (d.trace py cl (schedule.filter fun i => i = a)) := by
  unfold invocations
  refine congrArg _ (System.exec_alone _ a schedule (d.system py cl) (d.system py cl) rfl rfl ?_)
  intro before st after heq
  have hchecks := hown before st after heq
  exact perform_agree (d.env a) st.event.op st.pre.1 hchecks

/-! ## Consumers with events of their own -/

/-- The marker that an operation checks or writes. -/
def Op.marker? : Op → Option String
  | .redisExists key => some key
  | .redisSet key _ _ => some key
  | _ => none

/-- One of the messages carries an event whose marker has the key. -/
def Received (messages : List Message) (key : String) : Prop :=
  ∃ m ∈ messages, ∃ e, EventEnvelope.fromJson py m.value = .ok e ∧
    key = FraudKafkaConsumer.dedupKey py e.eventId

variable {py} {cl} {c : FraudKafkaConsumer}

/-- A consumer checks and writes the markers of the events that it receives, and no others. -/
theorem asks_consume (messages : List Message) :
    (c.consume py messages).Asks fun op => ∀ key, op.marker? = some key →
      Received py messages key := by
  have hunmarked : ∀ {α : Type} {p : Async α} {ok : String → Prop},
      (p.Asks fun op => op.marker? = none) →
        p.Asks fun op => ∀ key, op.marker? = some key → ok key := by
    intro α p ok hp
    refine hp.mono ?_
    intro op hnone key hsome
    rw [hnone] at hsome
    cases hsome
  have hcommit : c.commitOffset.Asks fun op => op.marker? = none := by
    unfold FraudKafkaConsumer.commitOffset
    split
    · exact Prog.asks_await rfl
    · trivial
  have hmessage : ∀ m ∈ messages, (c.processMessage py m).Asks fun op => ∀ key,
      op.marker? = some key → Received py messages key := by
    intro m hm
    unfold FraudKafkaConsumer.processMessage
    cases he : EventEnvelope.fromJson py m.value with
    | error x =>
        dsimp only
        split
        · refine hunmarked ((asks_neutral_rejected m x).mono ?_)
          intro op hneutral
          cases op <;> first | exact hneutral.elim | rfl
        · trivial
    | ok e =>
        have hown : Received py messages (FraudKafkaConsumer.dedupKey py e.eventId) :=
          ⟨m, hm, e, he, rfl⟩
        unfold FraudKafkaConsumer.accepted FraudKafkaConsumer.isDuplicate
          FraudKafkaConsumer.markProcessed
        refine Prog.Asks.bind ?_ fun duplicate => ?_
        · split
          · trivial
          · refine (Prog.asks_await ?_).tryExcept fun _ => trivial
            rintro key ⟨⟩
            exact hown
        · split
          · exact hunmarked hcommit
          · have hhandle : (c.handleWithRetry py m e).Asks fun op => op.marker? = none := by
              unfold FraudKafkaConsumer.handleWithRetry
              apply asks_attempts
              case hsleep => exact fun _ => rfl
              case hsend => exact fun _ _ => rfl
              all_goals rfl
            refine (hunmarked hhandle).bind fun _ => Prog.Asks.bind ?_ fun _ => hunmarked hcommit
            split
            · trivial
            · refine (Prog.asks_await ?_).tryExcept fun _ => trivial
              rintro key ⟨⟩
              exact hown
  have hloop : ∀ rest : List Message, (∀ m ∈ rest, m ∈ messages) →
      (c.consumeLoop py rest).Asks fun op => ∀ key, op.marker? = some key →
        Received py messages key := by
    intro rest hrest
    induction rest with
    | nil => trivial
    | cons m rest ih =>
        unfold FraudKafkaConsumer.consumeLoop
        refine (hunmarked (Prog.asks_await rfl)).bind fun _ =>
          (hunmarked (Prog.asks_await rfl)).bind fun running => ?_
        split
        · exact (hmessage m (hrest m List.mem_cons_self)).bind fun _ =>
            ih fun m' hm' => hrest m' (List.mem_cons_of_mem m hm')
        · trivial
  unfold FraudKafkaConsumer.consume
  split
  · trivial
  · exact (hloop messages fun _ h => h).tryExcept fun _ => trivial

/-- A consumer that shares no event id with the others is invoked as in the run without them. -/
theorem handler_calls_of_distinct (schedule : List ι)
    (hdistinct : ∀ i, i ≠ a → ∀ key, Received py (d.messages a) key →
      ¬ Received py (d.messages i) key) :
    invocations a (d.trace py cl schedule)
      = invocations a (d.trace py cl (schedule.filter fun i => i = a)) := by
  have hasks : ∀ x ∈ d.trace py cl schedule, ∀ key, x.2.event.op.marker? = some key →
      Received py (d.messages x.1) key := fun x hx =>
    (System.of_mem_trace _ (fun i => asks_consume (d.messages i)) hx).1
  unfold invocations
  refine congrArg _ (System.exec_alone _ a schedule (d.system py cl) (d.system py cl) rfl rfl ?_)
  intro before st after heq
  have htrace : d.trace py cl schedule = before ++ (a, st) :: after := heq
  refine perform_agree (d.env a) st.event.op st.pre.1 ?_
  intro key hop
  refine visible_of_unmarked py cl heq ?_
  rintro x hx hother ⟨v, ex, hset⟩
  have hown : Received py (d.messages a) key := by
    refine hasks (a, st) ?_ key (by rw [hop]; rfl)
    rw [htrace]
    exact List.mem_append_right _ List.mem_cons_self
  refine hdistinct x.1 hother key hown (hasks x ?_ key (by rw [hset]; rfl))
  rw [htrace]
  exact List.mem_append_left _ hx

end Deployment

/-! ### Two groups, one event -/

/-- The consumer of `sampleMessage` in two groups. -/
def twoGroups : Deployment Bool where
  consumer := fun i =>
    { sampleConsumer with groupId := if i then "scoring-engine" else "alert-service" }
  messages := fun _ => [sampleMessage]
  env := fun _ => Env.calm

/-- Who moves in `twoGroups` under a schedule, and what happens. -/
def twoGroupsEvents (schedule : List Bool) : List (Bool × Event) :=
  (twoGroups.trace CompactJson.compactJson World.fresh.2 schedule).map fun x => (x.1, x.2.event)

theorem twoGroups_system : twoGroups.system CompactJson.compactJson World.fresh.2
    = ⟨fun i => (do
          await (.deliver sampleMessage)
          if ← await .running then
            (twoGroups.consumer i).accepted CompactJson.compactJson sampleMessage sampleEvent
            pure () : Async Unit).tryExcept Exn.isCancelled fun _ => pure (),
        fun _ => ⟨0, 0, 0⟩, World.fresh.2⟩ := by
  have hthreads : ∀ i, (twoGroups.consumer i).consume CompactJson.compactJson [sampleMessage] = _ :=
    fun i => consume_sample rfl rfl
  rw [← funext hthreads]
  rfl

/-- Invocations are read off the events. -/
theorem invocations_twoGroups (schedule : List Bool) :
    invocations true (twoGroups.trace CompactJson.compactJson World.fresh.2 schedule)
      = ((twoGroupsEvents schedule).filter fun x => x.1).filterMap fun x => invoked? x.2 := by
  unfold invocations System.eventsOf twoGroupsEvents
  rw [List.filter_map, List.filterMap_map, List.filterMap_map]
  simp [Function.comp_def]

/-- The other group checks first, and marks nothing before this one has checked. -/
theorem twoGroupsEvents_overlap :
    twoGroupsEvents [false, false, false, true, true, true, true, true, false] =
    [(false, ⟨.deliver sampleMessage, .ok ()⟩), (false, ⟨.running, .ok true⟩),
      (false, ⟨.redisExists sampleKey, .ok false⟩),
      (true, ⟨.deliver sampleMessage, .ok ()⟩), (true, ⟨.running, .ok true⟩),
      (true, ⟨.redisExists sampleKey, .ok false⟩), (true, ⟨.handlerFn sampleEvent, .ok ()⟩),
      (true, ⟨.redisSet sampleKey "1" 86400, .ok ()⟩),
      (false, ⟨.handlerFn sampleEvent, .ok ()⟩)] := by
  unfold twoGroupsEvents Deployment.trace
  rw [twoGroups_system]
  rfl

theorem handler_calls_undisturbed_overlap :
    invocations true (twoGroups.trace CompactJson.compactJson World.fresh.2
        [false, false, false, true, true, true, true, true, false])
      = invocations true (twoGroups.trace CompactJson.compactJson World.fresh.2
        ([false, false, false, true, true, true, true, true, false].filter fun i => i = true)) := by
  refine handler_calls_undisturbed CompactJson.compactJson World.fresh.2 _ ?_
  intro before st after heq key _
  refine visible_of_unmarked CompactJson.compactJson World.fresh.2 heq ?_
  have hnone : ∀ y ∈ twoGroupsEvents [false, false, false, true, true, true, true, true, false],
      y.1 ≠ true → ¬ Marks key y.2.op := by
    rw [twoGroupsEvents_overlap]
    simp [Marks]
  intro x hx hother
  have hmem : (x.1, x.2.event)
      ∈ twoGroupsEvents [false, false, false, true, true, true, true, true, false] := by
    unfold twoGroupsEvents
    rw [heq]
    exact List.mem_map_of_mem (List.mem_append_left _ hx)
  exact hnone _ hmem hother

/-- The other group marks the event before this one checks it. -/
theorem twoGroupsEvents_hidden :
    twoGroupsEvents [false, false, false, false, false, false, true, true, true, true] =
    [(false, ⟨.deliver sampleMessage, .ok ()⟩), (false, ⟨.running, .ok true⟩),
      (false, ⟨.redisExists sampleKey, .ok false⟩), (false, ⟨.handlerFn sampleEvent, .ok ()⟩),
      (false, ⟨.redisSet sampleKey "1" 86400, .ok ()⟩), (false, ⟨.commit, .ok ()⟩),
      (true, ⟨.deliver sampleMessage, .ok ()⟩), (true, ⟨.running, .ok true⟩),
      (true, ⟨.redisExists sampleKey, .ok true⟩), (true, ⟨.commit, .ok ()⟩)] := by
  unfold twoGroupsEvents Deployment.trace
  rw [twoGroups_system]
  with_unfolding_all rfl

theorem twoGroupsEvents_alone : twoGroupsEvents [true, true, true, true] =
    [(true, ⟨.deliver sampleMessage, .ok ()⟩), (true, ⟨.running, .ok true⟩),
      (true, ⟨.redisExists sampleKey, .ok false⟩), (true, ⟨.handlerFn sampleEvent, .ok ()⟩)] := by
  unfold twoGroupsEvents Deployment.trace
  rw [twoGroups_system]
  rfl

/-- A group skips the event that another group has processed. -/
theorem group_skips_event :
    (twoGroups.consumer true).groupId ≠ (twoGroups.consumer false).groupId ∧
    (∀ i, (twoGroups.env i).RedisWorks) ∧
    ¬ ∀ schedule : List Bool,
      invocations true (twoGroups.trace CompactJson.compactJson World.fresh.2 schedule)
        = invocations true (twoGroups.trace CompactJson.compactJson World.fresh.2
          (schedule.filter fun i => i = true)) := by
  refine ⟨by decide, fun _ => Env.calm_healthy.redisWorks, ?_⟩
  intro hclaim
  have hsame := hclaim [false, false, false, false, false, false, true, true, true, true]
  have hkept : [false, false, false, false, false, false, true, true, true, true].filter
      (fun i => i = true) = [true, true, true, true] := rfl
  rw [hkept, invocations_twoGroups, invocations_twoGroups, twoGroupsEvents_hidden,
    twoGroupsEvents_alone] at hsame
  simp [invoked?] at hsame

end FraudDetection.Kafka
