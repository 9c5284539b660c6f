import Mathlib.Tactic.Linarith
import FraudDetection.Kafka.OffsetCommit
import FraudDetection.Kafka.PoisonPill

/-!
# One outcome for each event id

While no marker expires and neither Redis nor the broker fails, every event id is settled once: the
first delivery of the id either ends in a handler call that returns, or in `max_retries` failed
calls and one dead letter; every later delivery is skipped and committed. That is so in every run in
which no backoff overflows, and in no other.

The `tally` of an event id counts what a list of events says about it, and is additive over
concatenation. One turn of the loop either skips the message, when its id is marked, or adds one
outcome to the tally of its id and marks it (`SettlesTurn`), or ends the loop at an overflow, with
failed calls only (`tally_of_overflow`). `Accounted` states the result for the events of a loop from
a given Redis; a turn in front of an accounted list leaves it accounted.
-/

namespace FraudDetection.Kafka

open Async Python Store

/-! ## Tallies -/

/-- What a list of events says about an event id: the handler calls that returned, those that
raised, and the retry counts of its dead letters. -/
@[ext]
structure Tally where
  returned : ℕ
  raised : ℕ
  retryCounts : List Json

namespace Tally

instance : Zero Tally := ⟨⟨0, 0, []⟩⟩

instance : Add Tally :=
  ⟨fun s t => ⟨s.returned + t.returned, s.raised + t.raised, s.retryCounts ++ t.retryCounts⟩⟩

@[simp] theorem zero_returned : (0 : Tally).returned = 0 := rfl
@[simp] theorem zero_raised : (0 : Tally).raised = 0 := rfl
@[simp] theorem zero_retryCounts : (0 : Tally).retryCounts = [] := rfl
@[simp] theorem add_returned (s t : Tally) : (s + t).returned = s.returned + t.returned := rfl
@[simp] theorem add_raised (s t : Tally) : (s + t).raised = s.raised + t.raised := rfl

@[simp] theorem add_retryCounts (s t : Tally) :
    (s + t).retryCounts = s.retryCounts ++ t.retryCounts := rfl

@[simp] theorem zero_add (t : Tally) : 0 + t = t := by
  ext <;> simp

@[simp] theorem add_zero (t : Tally) : t + 0 = t := by
  ext <;> simp

theorem add_assoc (s t u : Tally) : s + t + u = s + (t + u) := by
  ext
  · exact Nat.add_assoc _ _ _
  · exact Nat.add_assoc _ _ _
  · simp

end Tally

/-- The envelope has the event id `id`. -/
def EventEnvelope.hasId (e : EventEnvelope) (id : String) : Bool :=
  match e.eventId with
  | .str s => s == id
  | _ => false

theorem EventEnvelope.hasId_iff {e : EventEnvelope} {s : String} (he : e.eventId = .str s)
    (id : String) : e.hasId id = decide (s = id) := by
  rw [EventEnvelope.hasId, he]
  rfl

/-- The retry count a dead letter carries, if the event in it has the id `id`. -/
def retryCount? (py : PyLib) (id : String) (value : ByteArray) : Option Json :=
  (do
    let d ← EventEnvelope.fromJson py (some value)
    let orig ← d.payload.getItem "original_event"
    let origId ← orig.getItem "event_id"
    let n ← d.payload.get "retry_count" .null
    return (origId, n) : Except Exn (Json × Json)).toOption.bind fun (origId, n) =>
      match origId with
      | .str s => if s == id then some n else none
      | _ => none

/-- What one event says about `id`. -/
def tallyOf (py : PyLib) (id : String) (ev : Event) : Tally :=
  match ev with
  | ⟨.handlerFn e, .ok _⟩ => if e.hasId id then ⟨1, 0, []⟩ else 0
  | ⟨.handlerFn e, .error _⟩ => if e.hasId id then ⟨0, 1, []⟩ else 0
  | ⟨.sendAndWait _ _ value, .ok _⟩ => ⟨0, 0, (retryCount? py id value).toList⟩
  | _ => 0

/-- What a list of events says about `id`. -/
def tally (py : PyLib) (id : String) : List Event → Tally
  | [] => 0
  | ev :: es => tallyOf py id ev + tally py id es

section Tallies

variable (py : PyLib) (id : String)

@[simp] theorem tally_nil : tally py id [] = 0 := rfl

theorem tally_cons (ev : Event) (es : List Event) :
    tally py id (ev :: es) = tallyOf py id ev + tally py id es := rfl

theorem tally_append (es fs : List Event) :
    tally py id (es ++ fs) = tally py id es + tally py id fs := by
  induction es with
  | nil => rw [List.nil_append, tally_nil, Tally.zero_add]
  | cons ev es ih => rw [List.cons_append, tally_cons, tally_cons, ih, Tally.add_assoc]

variable {py} {id}

/-- The failed calls of one event. -/
theorem Failures.tally_eq {e : EventEnvelope} {n : ℕ} {es : List Event} (hf : Failures e n es) :
    tally py id es = if e.hasId id then ⟨0, n, []⟩ else 0 := by
  induction hf with
  | nil => split <;> rfl
  | @fail n es x hx _ ih =>
      rw [tally_cons, ih]
      by_cases hid : e.hasId id = true
      · simp only [tallyOf, hid, if_true]
        exact Tally.ext (by simp) (by simp; omega) (by simp)
      · simp [tallyOf, hid]
  | @sleep n es t _ ih =>
      rw [tally_cons, ih]
      exact Tally.zero_add _

/-- A dead letter for `e` counts for the id of `e` and no other. -/
theorem retryCount?_deadLetter (py : PyLib) (id : String) {e : EventEnvelope} (he : e.WF)
    (topic msg : String) (n : ℕ) (failedAt dlqId ts : String) :
    retryCount? py id (DLQHandler.deadLetter py topic e msg n failedAt dlqId ts)
      = if e.hasId id then some (.int n) else none := by
  have hwf := DLQHandler.dlqEnvelope_wf he topic msg n failedAt dlqId ts
  unfold retryCount? DLQHandler.deadLetter
  rw [EventEnvelope.fromJson_toJson py hwf]
  unfold EventEnvelope.hasId
  cases hid : e.eventId <;> simp [bind, Except.bind, Except.toOption, DLQHandler.dlqEnvelope,
    DLQHandler.dlqPayload, EventEnvelope.normalise, Json.getItem, EventEnvelope.toDict, hid,
    List.lookup_cons, pure, Except.pure]

theorem DlqEvents.tally_eq {h : DLQHandler} {topic : String} {key : Json} {e : EventEnvelope}
    {msg : String} {n : ℕ} {es : List Event} (he : e.WF)
    (hds : DlqEvents py h topic key e msg n (.ok ()) es) :
    tally py id es = if e.hasId id then ⟨0, 0, [.int n]⟩ else 0 := by
  obtain ⟨failedAt, dlqId, ts, rfl⟩ := hds
  have hcount := retryCount?_deadLetter py id he topic msg n failedAt dlqId ts
  unfold DLQHandler.deadLetter at hcount
  simp only [tally, tallyOf, hcount, Tally.zero_add, Tally.add_zero]
  split <;> rfl

end Tallies

/-! ## One outcome -/

/-- The two ways an event id is settled: a handler call returned and there is no dead letter, or
`max_retries` calls raised, none returned, and there is one dead letter that says so. -/
def OneOutcome (c : FraudKafkaConsumer) (t : Tally) : Prop :=
  (t.returned = 1 ∧ t.retryCounts = []) ∨
  (t.raised = c.maxRetries ∧ t.returned = 0 ∧ t.retryCounts = [.int c.maxRetries])

/-- Handling an event to its end adds one outcome to the tally of its id and nothing to others. -/
theorem Outcome.tally_eq {py : PyLib} {c : FraudKafkaConsumer} {h : DLQHandler} {m : Message}
    {e : EventEnvelope} (he : e.WF) {u : Unit} {es : List Event}
    (ho : Outcome py c h m e c.maxRetries (.ok u) es)
    (hsend : ∀ t k v r, ⟨.sendAndWait t k v, r⟩ ∈ es → r = .ok ()) :
    ∃ t, OneOutcome c t ∧ ∀ id, tally py id es = if e.hasId id then t else 0 := by
  rcases ho with ⟨k, fs, -, hfs, rfl⟩ | ⟨rep, ⟨fs, ds, msg, hfs, rfl, hds⟩, -⟩
  · -- a call returned, after `k` failures
    refine ⟨⟨1, k, []⟩, Or.inl ⟨rfl, rfl⟩, ?_⟩
    intro id
    rw [tally_append, hfs.tally_eq]
    by_cases hid : e.hasId id = true
    · simp only [tally, tallyOf, hid, if_true]
      exact Tally.ext (by simp) (by simp) (by simp)
    · simp [tally, tallyOf, hid]
  · -- every call failed, and the broker accepted the dead letter
    have hrep : rep = .ok () := by
      obtain ⟨failedAt, dlqId, ts, rfl⟩ := hds
      exact hsend _ _ _ rep (List.mem_append_right _ (.tail _ (.tail _ (.tail _ (.head _)))))
    subst hrep
    refine ⟨⟨0, c.maxRetries, [.int c.maxRetries]⟩, Or.inr ⟨rfl, rfl, rfl⟩, ?_⟩
    intro id
    rw [tally_append, hfs.tally_eq, hds.tally_eq he]
    by_cases hid : e.hasId id = true
    · simp only [hid, if_true]
      exact Tally.ext (by simp) (by simp) (by simp)
    · simp [hid]

/-! ## One turn -/

/-- The commit that ends a turn, unless Kafka commits by itself. -/
def commits (c : FraudKafkaConsumer) : List Event :=
  if c.autoCommit then [] else [⟨.commit, .ok ()⟩]

theorem tally_commits (py : PyLib) (c : FraudKafkaConsumer) (id : String) :
    tally py id (commits c) = 0 := by
  unfold commits
  split <;> rfl

theorem commits_not_delivery {c : FraudKafkaConsumer} :
    ∀ ev ∈ commits c, isDelivery ev = false := by
  unfold commits
  split <;> simp [isDelivery]

/-- One turn of the loop on an event with id `j`: where `marked` holds the turn is skipped,
elsewhere it adds one outcome and marks the id. -/
structure SettlesTurn (py : PyLib) (c : FraudKafkaConsumer) (j : String)
    (marked marked' : String → Bool) (ts : List Event) : Prop where
  no_delivery : ∀ ev ∈ ts, isDelivery ev = false
  skips : marked j = true →
    ts = ⟨.redisExists (FraudKafkaConsumer.dedupKey py (.str j)), .ok true⟩ :: commits c ∧
      marked' = marked
  settles : marked j = false → marked' = (fun id => decide (j = id) || marked id) ∧
    ∃ t, OneOutcome c t ∧ ∀ id, tally py id ts = if j = id then t else 0

section Turn

variable (py : PyLib) {c : FraudKafkaConsumer} {env : Env} {w : World}

theorem run_commitOffset (hc : c.Started) (henv : env.Reliable) :
    (c.commitOffset.run (perform env) w).result = .ok () ∧
    (c.commitOffset.run (perform env) w).events = commits c := by
  unfold FraudKafkaConsumer.commitOffset commits
  rw [hc.consumer]
  cases hauto : c.autoCommit with
  | true => exact ⟨rfl, rfl⟩
  | false =>
      simp only [Bool.not_false, Bool.and_self, if_true, Bool.false_eq_true, if_false]
      rw [Prog.events_await, Prog.run_await]
      simp [perform, henv.fault]

/-- The ids visibly marked at time `t`. -/
def markedAt (t : ℚ) (r : Keyspace String String ℚ) (id : String) : Bool :=
  r.exist t (FraudKafkaConsumer.dedupKey py (.str id))

theorem dedupKey_inj {i j : String}
    (h : FraudKafkaConsumer.dedupKey py (.str i) = FraudKafkaConsumer.dedupKey py (.str j)) :
    i = j := by
  simpa [FraudKafkaConsumer.dedupKey, PyLib.str_str] using h

/-- Writing a marker that lasts until `t` marks its id and no other. -/
theorem markedAt_set {t d : ℚ} (hd : t ≤ d) (r : Keyspace String String ℚ) (j : String) :
    markedAt py t (r.set (FraudKafkaConsumer.dedupKey py (.str j)) "1" (some d))
      = fun id => decide (j = id) || markedAt py t r id := by
  funext id
  unfold markedAt
  by_cases hj : j = id
  · subst hj
    rw [Keyspace.exist_of_deadline (Keyspace.set_self _ _ _ _)]
    simp [hd]
  · have hne : FraudKafkaConsumer.dedupKey py (.str id) ≠ FraudKafkaConsumer.dedupKey py (.str j) :=
      fun h => hj (dedupKey_inj py h).symm
    rw [Keyspace.exist_congr (Keyspace.set_of_ne r hne "1" (some d))]
    simp [hj]

/-- A message whose id is marked is skipped, and its offset committed. -/
theorem settlesTurn_of_marked (hc : c.Started) (hredis : c.redis = true) (henv : env.Healthy)
    {m : Message} {e : EventEnvelope} {j : String} (hj : e.eventId = .str j) {t : ℚ}
    (hmark : markedAt py t w.2.redis j = true)
    (hexist : w.2.redis.exist (env.clock w.1.ops) (FraudKafkaConsumer.dedupKey py e.eventId)
      = true) :
    let x := (c.accepted py m e).run (perform env) w
    x.result = .ok () ∧
      SettlesTurn py c j (markedAt py t w.2.redis) (markedAt py t x.final.2.redis) x.events := by
  intro x
  have hw := henv.redisWorks
  have hcommit := run_commitOffset (w := w.tick) hc henv.toReliable
  have hevents := events_accepted_of_exist py hredis hw (m := m) hexist
  rw [hcommit.2] at hevents
  have hrun := run_accepted_of_exist py hredis hw (m := m) hexist
  have hresult : x.result = .ok () := by
    simp only [x, hrun]
    exact hcommit.1
  have hfinal : x.final.2 = w.2 := by
    simp only [x, hrun]
    exact cluster_commitOffset
  refine ⟨hresult, ?_, ?_, ?_⟩
  · rw [hevents]
    exact List.forall_mem_cons.mpr ⟨rfl, commits_not_delivery⟩
  · intro _
    rw [hevents, hj, hfinal]
    exact ⟨rfl, rfl⟩
  · intro hnot
    rw [hnot] at hmark
    cases hmark

/-- A message whose id is not marked is handled, which settles its id if no backoff overflows, and
its id is marked. -/
theorem settlesTurn_of_unmarked (hc : c.Started) (hredis : c.redis = true) (httl : 0 < c.dedupTtl)
    (henv : env.Healthy) (hexc : ∀ k x, env.handler k = some x → x.isException = true)
    (hclock : Monotone env.clock) (hfits : BackoffFits c env w) {m : Message} {e : EventEnvelope}
    (he : e.WF) {j : String} (hj : e.eventId = .str j) {t : ℚ} (ht : t ≤ env.clock w.1.ops)
    (hmark : markedAt py t w.2.redis j = false)
    (hexist : w.2.redis.exist (env.clock w.1.ops) (FraudKafkaConsumer.dedupKey py e.eventId)
      = false) :
    let x := (c.accepted py m e).run (perform env) w
    x.result = .ok () ∧
      SettlesTurn py c j (markedAt py t w.2.redis) (markedAt py t x.final.2.redis) x.events := by
  intro x
  have hw := henv.redisWorks
  obtain ⟨h, hh, hp⟩ := hc.dlqHandler
  have hkey : Sendable (orElse m.key e.eventId) := hj ▸ sendable_orElse m.key j
  have hok : x.result = .ok () := (accepted_returns_iff hc henv hexc hkey hexist).mpr hfits
  obtain ⟨hhandle, hsteps, hfinal⟩ := run_accepted_ok py hredis hw httl hexist hok
  have hevents : x.events = ⟨.redisExists (FraudKafkaConsumer.dedupKey py e.eventId), .ok false⟩
      :: (((c.handleWithRetry py m e).run (perform env) w.tick).events
        ++ ⟨.redisSet (FraudKafkaConsumer.dedupKey py e.eventId) "1" c.dedupTtl, .ok ()⟩
          :: commits c) := by
    rw [← (run_commitOffset (w := ((c.handleWithRetry py m e).run (perform env)
      w.tick).final.mark env (FraudKafkaConsumer.dedupKey py e.eventId) c.dedupTtl)
      hc henv.toReliable).2]
    unfold Execution.events
    rw [hsteps]
    simp
  have ho : Outcome py c h m e c.maxRetries (.ok ())
      ((c.handleWithRetry py m e).run (perform env) w.tick).events := by
    rw [← hhandle]
    exact outcome_handleWithRetry py hh hp m e
  have hasks : ∀ ev ∈ ((c.handleWithRetry py m e).run (perform env) w.tick).events,
      Handling ev.op :=
    (emits_handleWithRetry hh hp m e).asks.run (perform env) w.tick
  obtain ⟨t', ht', htally⟩ := ho.tally_eq he fun _ _ _ _ hev =>
    send_ok_of_mem (asks_keyed_handleWithRetry py hkey) henv hev
  refine ⟨hok, ?_, ?_, ?_⟩
  · rw [hevents]
    have hhandling : ∀ ev ∈ ((c.handleWithRetry py m e).run (perform env) w.tick).events,
        isDelivery ev = false := by
      intro ev hev
      have hop := hasks ev hev
      unfold isDelivery
      split
      · rename_i hdeliver
        rw [hdeliver] at hop
        exact hop.elim
      · rfl
    refine List.forall_mem_cons.mpr ⟨rfl, List.forall_mem_append.mpr ⟨hhandling, ?_⟩⟩
    exact List.forall_mem_cons.mpr ⟨rfl, commits_not_delivery⟩
  · intro hyes
    rw [hyes] at hmark
    cases hmark
  · intro _
    constructor
    · -- the marker is written after the handling, so its TTL starts no earlier than the turn
      rw [hfinal, cluster_commitOffset]
      simp only [World.mark]
      rw [redis_handleWithRetry py hc m e, hj]
      refine markedAt_set py ?_ _ j
      have hops : w.1.ops ≤
          ((c.handleWithRetry py m e).run (perform env) w.tick).final.1.ops :=
        le_trans (Nat.le_succ _) (ops_le_final _ env w.tick)
      have hlater := hclock hops
      have hpos : (0 : ℚ) < (c.dedupTtl : ℚ) := by exact_mod_cast httl
      linarith
    · refine ⟨t', ht', ?_⟩
      intro id
      rw [hevents, tally_cons, tally_append, tally_cons, tally_commits, htally id,
        EventEnvelope.hasId_iff hj]
      simp [tallyOf]

/-- Where no backoff overflows, the processing of a message that parses returns, and is a turn in
which its id is settled. -/
theorem settlesTurn_accepted (hc : c.Started) (hredis : c.redis = true) (httl : 0 < c.dedupTtl)
    (henv : env.Healthy) (hexc : ∀ k x, env.handler k = some x → x.isException = true)
    (hclock : Monotone env.clock) {m : Message} {e : EventEnvelope} (he : e.WF) {j : String}
    (hj : e.eventId = .str j) {t : ℚ} (ht : t ≤ env.clock w.1.ops)
    (hnow : markedAt py (env.clock w.1.ops) w.2.redis j = markedAt py t w.2.redis j)
    (hfits : markedAt py t w.2.redis j = false → BackoffFits c env w) :
    let x := (c.accepted py m e).run (perform env) w
    x.result = .ok () ∧
      SettlesTurn py c j (markedAt py t w.2.redis) (markedAt py t x.final.2.redis) x.events := by
  have hexist : w.2.redis.exist (env.clock w.1.ops) (FraudKafkaConsumer.dedupKey py e.eventId)
      = markedAt py t w.2.redis j := by
    rw [hj]
    exact hnow
  by_cases hmark : markedAt py t w.2.redis j = true
  · exact settlesTurn_of_marked py hc hredis henv hj hmark (hexist.trans hmark)
  · have hnot := Bool.eq_false_iff.mpr hmark
    exact settlesTurn_of_unmarked py hc hredis httl henv hexc hclock (hfits hnot) he hj ht hnot
      (hexist.trans hnot)

/-- A message on which a backoff overflows raises, and leaves nothing behind but failed calls. -/
theorem tally_of_overflow (hc : c.Started) (hredis : c.redis = true) (henv : env.Healthy)
    (hexc : ∀ k x, env.handler k = some x → x.isException = true) {m : Message} {e : EventEnvelope}
    {j : String} (hj : e.eventId = .str j) (hover : ¬ BackoffFits c env w)
    (hexist : w.2.redis.exist (env.clock w.1.ops) (FraudKafkaConsumer.dedupKey py e.eventId)
      = false) :
    let x := (c.accepted py m e).run (perform env) w
    (∃ y, x.result = .error y) ∧ ∃ n, tally py j x.events = ⟨0, n, []⟩ := by
  intro x
  obtain ⟨h, hh, hp⟩ := hc.dlqHandler
  -- the counters that the condition reads are not touched by the check
  have hhandling : ¬ ((c.handleWithRetry py m e).run (perform env) w.tick).result = .ok () := by
    rw [result_handleWithRetry hh hp henv.toReliable hexc]
    exact fun hok => hover hok.1
  have ho := @outcome_handleWithRetry py c env w.tick _ hh hp m e
  cases hresult : ((c.handleWithRetry py m e).run (perform env) w.tick).result with
  | ok u => exact absurd hresult hhandling
  | error y =>
      rw [hresult] at ho
      have hkey : Sendable (orElse m.key e.eventId) := hj ▸ sendable_orElse m.key j
      obtain ⟨-, k, -, hfs, -⟩ := ho.resolve_left
        (not_raisedBy (asks_keyed_handleWithRetry py hkey) henv hexc)
      have hx : x = ⟨.error y, ⟨w, ⟨.redisExists (FraudKafkaConsumer.dedupKey py e.eventId),
          .ok false⟩⟩ :: ((c.handleWithRetry py m e).run (perform env) w.tick).steps,
          ((c.handleWithRetry py m e).run (perform env) w.tick).final⟩ := by
        simp only [x]
        rw [run_accepted_of_not_exist py hredis henv.redisWorks hexist, Prog.run_bind, hresult]
      refine ⟨⟨y, by rw [hx]⟩, k, ?_⟩
      have hevents : x.events = ⟨.redisExists (FraudKafkaConsumer.dedupKey py e.eventId), .ok false⟩
          :: ((c.handleWithRetry py m e).run (perform env) w.tick).events := by
        rw [hx]
        rfl
      have hid : e.hasId j = true := by
        rw [EventEnvelope.hasId_iff hj]
        exact decide_eq_true rfl
      rw [hevents, tally_cons, hfs.tally_eq, if_pos hid]
      exact Tally.zero_add _

/-- Failed calls alone are no outcome. -/
theorem not_oneOutcome_failed (c : FraudKafkaConsumer) (n : ℕ) : ¬ OneOutcome c ⟨0, n, []⟩ := by
  rintro (⟨hreturned, -⟩ | ⟨-, -, hletter⟩)
  · cases hreturned
  · cases hletter

end Turn

/-! ## The turns of a run -/

/-- The delivered messages of a run, each with the events up to the next delivery. -/
def turns : List Event → List (Message × List Event)
  | [] => []
  | ev :: es =>
      match ev with
      | ⟨.deliver m, .ok _⟩ => (m, turn es) :: turns es
      | _ => turns es

theorem turns_delivery (m : Message) (es : List Event) :
    turns (⟨.deliver m, .ok ()⟩ :: es) = (m, turn es) :: turns es := rfl

theorem turns_append {es : List Event} (hes : ∀ ev ∈ es, isDelivery ev = false)
    (fs : List Event) : turns (es ++ fs) = turns fs := by
  induction es with
  | nil => rfl
  | cons ev es ih =>
      have hrest := ih fun ev' hev' => hes ev' (List.mem_cons_of_mem _ hev')
      have hev := hes ev List.mem_cons_self
      rw [List.cons_append, turns]
      · exact hrest
      · rintro m u rfl
        cases hev

/-- The events of a turn are those between its delivery and the next. -/
theorem turns_turn (m : Message) {ts es : List Event} (hts : ∀ ev ∈ ts, isDelivery ev = false)
    (hturn : turn es = []) :
    turns (⟨.deliver m, .ok ()⟩ :: ⟨.running, .ok true⟩ :: (ts ++ es))
      = (m, ⟨.running, .ok true⟩ :: ts) :: turns es := by
  have hrunning : ∀ ev ∈ (⟨.running, .ok true⟩ : Event) :: ts, isDelivery ev = false := by
    intro ev hev
    rcases List.mem_cons.mp hev with rfl | hev
    · rfl
    · exact hts ev hev
  have hfirst : turn (⟨.running, .ok true⟩ :: (ts ++ es)) = ⟨.running, .ok true⟩ :: ts := by
    unfold turn at hturn ⊢
    rw [← List.cons_append, List.takeWhile_append_of_pos fun ev hev => by simp [hrunning ev hev],
      hturn, List.append_nil]
  rw [turns_delivery, hfirst, ← List.cons_append, turns_append hrunning]

/-- The message parses to an event with the id `id`. -/
def Carries (py : PyLib) (m : Message) (id : String) : Prop :=
  ∃ e, EventEnvelope.fromJson py m.value = .ok e ∧ e.eventId = .str id

theorem Carries.unique {py : PyLib} {m : Message} {i j : String} (hi : Carries py m i)
    (hj : Carries py m j) : i = j := by
  obtain ⟨e, he, hi⟩ := hi
  obtain ⟨e', he', hj⟩ := hj
  cases he.symm.trans he'
  cases hi.symm.trans hj
  rfl

/-- Among these turns is one that hands a message with the id `id` to `_process_message`. -/
def Handed (py : PyLib) (id : String) (ts : List (Message × List Event)) : Prop :=
  ∃ t ∈ ts, Carries py t.1 id ∧ (⟨.running, .ok true⟩ : Event) ∈ t.2

theorem handed_cons {py : PyLib} {id : String} {t : Message × List Event}
    {ts : List (Message × List Event)} :
    Handed py id (t :: ts) ↔
      (Carries py t.1 id ∧ (⟨.running, .ok true⟩ : Event) ∈ t.2) ∨ Handed py id ts := by
  simp [Handed]

theorem handed_turn {py : PyLib} {m : Message} {j : String} (hm : Carries py m j)
    {ts : List Event} {rest : List (Message × List Event)} {id : String} :
    Handed py id ((m, ⟨.running, .ok true⟩ :: ts) :: rest) ↔ j = id ∨ Handed py id rest := by
  rw [handed_cons]
  refine or_congr_left ⟨fun h => hm.unique h.1, ?_⟩
  rintro rfl
  exact ⟨hm, List.mem_cons_self⟩

/-- The events of a loop that starts where the ids in `marked` are marked. -/
structure Accounted (py : PyLib) (c : FraudKafkaConsumer) (marked : String → Bool)
    (es : List Event) : Prop where
  skipped : ∀ id, marked id = true → tally py id es = 0
  untouched : ∀ id, ¬ Handed py id (turns es) → tally py id es = 0
  settled : ∀ id, marked id = false → Handed py id (turns es) → OneOutcome c (tally py id es)
  later : ∀ before m ts after id, turns es = before ++ (m, ts) :: after →
    (⟨.running, .ok true⟩ : Event) ∈ ts → Carries py m id →
    marked id = true ∨ Handed py id before →
    ts = ⟨.running, .ok true⟩ ::
      ⟨.redisExists (FraudKafkaConsumer.dedupKey py (.str id)), .ok true⟩ :: commits c

section Loop

variable {py : PyLib} {c : FraudKafkaConsumer} {marked marked' : String → Bool}

theorem Accounted.nil : Accounted py c marked [] where
  skipped := fun _ _ => rfl
  untouched := fun _ _ => rfl
  settled := fun id _ hh => by simp [turns, Handed] at hh
  later := fun before m ts after id hes => by simp [turns] at hes

/-- A delivery that finds the consumer stopped does nothing. -/
theorem Accounted.stopped (m : Message) :
    Accounted py c marked [⟨.deliver m, .ok ()⟩, ⟨.running, .ok false⟩] := by
  have hturns : turns [⟨.deliver m, .ok ()⟩, ⟨.running, .ok false⟩]
      = [(m, [⟨.running, .ok false⟩])] := rfl
  have hnot : (⟨.running, .ok true⟩ : Event) ∉ [(⟨.running, .ok false⟩ : Event)] := by
    simp
  refine ⟨fun _ _ => rfl, fun _ _ => rfl, ?_, ?_⟩
  · rintro id - ⟨t, ht, -, hrun⟩
    rw [hturns, List.mem_singleton] at ht
    subst ht
    exact absurd hrun hnot
  · intro before m' ts after id hes hrun
    rw [hturns] at hes
    cases before with
    | nil =>
        cases hes
        exact absurd hrun hnot
    | cons t before => simp at hes

/-- The id of a turn is marked after it. -/
theorem SettlesTurn.marked_self {j : String} {ts : List Event}
    (hts : SettlesTurn py c j marked marked' ts) : marked' j = true := by
  cases hj : marked j with
  | true => rw [(hts.skips hj).2, hj]
  | false =>
      rw [(hts.settles hj).1]
      simp

/-- Another id is marked as it was before the turn, and has no outcome in it. -/
theorem SettlesTurn.other {j id : String} {ts : List Event}
    (hts : SettlesTurn py c j marked marked' ts) (hne : j ≠ id) :
    marked' id = marked id ∧ tally py id ts = 0 := by
  cases hj : marked j with
  | true =>
      obtain ⟨rfl, hsame⟩ := hts.skips hj
      rw [hsame, tally_cons, tally_commits]
      exact ⟨rfl, rfl⟩
  | false =>
      obtain ⟨hmark, t, -, htally⟩ := hts.settles hj
      rw [hmark, htally id]
      simp [hne]

/-- A turn in front of accounted events leaves them accounted. -/
theorem Accounted.cons {m : Message} {j : String} (hm : Carries py m j) {ts es : List Event}
    (hts : SettlesTurn py c j marked marked' ts) (hes : Accounted py c marked' es)
    (hturn : turn es = []) :
    Accounted py c marked (⟨.deliver m, .ok ()⟩ :: ⟨.running, .ok true⟩ :: (ts ++ es)) := by
  have htally : ∀ id, tally py id (⟨.deliver m, .ok ()⟩ :: ⟨.running, .ok true⟩ :: (ts ++ es))
      = tally py id ts + tally py id es := by
    intro id
    rw [tally_cons, tally_cons, tally_append]
    simp [tallyOf]
  have hturns := turns_turn m hts.no_delivery hturn
  have hself := hts.marked_self
  refine ⟨?_, ?_, ?_, ?_⟩
  · intro id hid
    rw [htally]
    by_cases hne : j = id
    · subst hne
      -- a marked id is skipped in this turn and in all later ones
      obtain ⟨rfl, -⟩ := hts.skips hid
      rw [hes.skipped _ hself, tally_cons, tally_commits]
      rfl
    · obtain ⟨hmark, hzero⟩ := hts.other hne
      rw [hzero, hes.skipped id (hmark.trans hid)]
      rfl
  · intro id hnot
    rw [hturns, handed_turn hm, not_or] at hnot
    rw [htally, (hts.other hnot.1).2, hes.untouched id hnot.2]
    rfl
  · intro id hid hh
    rw [hturns, handed_turn hm] at hh
    rw [htally]
    by_cases hne : j = id
    · subst hne
      -- the turn has the outcome, and the rest, which finds the marker, adds nothing
      obtain ⟨-, t, ht, hts⟩ := hts.settles hid
      rw [hes.skipped _ hself, hts, Tally.add_zero, if_pos rfl]
      exact ht
    · obtain ⟨hmark, hzero⟩ := hts.other hne
      rw [hzero, Tally.zero_add]
      exact hes.settled id (hmark.trans hid) (hh.resolve_left hne)
  · -- the turn of a later delivery of the id is this one or one of the rest
    intro before m' ts' after id heq hrun hcarries hmarked
    rw [hturns] at heq
    cases before with
    | nil =>
        obtain ⟨hhead, -⟩ := List.cons.inj heq
        cases hhead
        obtain rfl := hm.unique hcarries
        have hid : marked j = true := hmarked.resolve_right (by simp [Handed])
        rw [(hts.skips hid).1]
    | cons t before =>
        obtain ⟨rfl, htail⟩ := List.cons.inj heq
        refine hes.later before m' ts' after id htail hrun hcarries ?_
        by_cases hne : j = id
        · subst hne
          exact Or.inl hself
        · rcases hmarked with hmarked | hmarked
          · exact Or.inl ((hts.other hne).1.trans hmarked)
          -- the turn in front is about another id
          · rcases handed_cons.mp hmarked with ⟨hcarries', -⟩ | hmarked
            · exact absurd (hm.unique hcarries') hne
            · exact Or.inr hmarked

/-! ## The loop -/

/-- Nothing visible at time `t`, or written since, expires before the steps are over. -/
def Lasting (env : Env) (t : ℚ) (steps : List (Step World Op.Ret Exn)) : Prop :=
  ∀ st ∈ steps, ∀ key e, st.pre.2.redis key = some e → e.live t = true →
    e.live (env.clock st.pre.1.ops) = true

theorem Lasting.sublist {env : Env} {t : ℚ} {steps steps' : List (Step World Op.Ret Exn)}
    (h : Lasting env t steps) (hsub : ∀ st ∈ steps', st ∈ steps) : Lasting env t steps' :=
  fun st hst => h st (hsub st hst)

/-- At a step of such a run the same ids are marked as at time `t`. -/
theorem Lasting.markedAt_eq (py : PyLib) {env : Env} {t : ℚ} {steps : List (Step World Op.Ret Exn)}
    (h : Lasting env t steps) {st : Step World Op.Ret Exn} (hst : st ∈ steps)
    (ht : t ≤ env.clock st.pre.1.ops) (id : String) :
    markedAt py (env.clock st.pre.1.ops) st.pre.2.redis id = markedAt py t st.pre.2.redis id :=
  Keyspace.exist_eq_of_live ht fun e he => h st hst _ e he

variable {env : Env} {w : World}

/-- A duplicate check that finds no marker. -/
def findsNoMarker (ev : Event) : Bool :=
  match ev with
  | ⟨.redisExists _, .ok found⟩ => !found
  | _ => false

theorem findsNoMarker_of_ne {ev : Event} (h : ∀ key, ev.op ≠ .redisExists key) :
    findsNoMarker ev = false := by
  unfold findsNoMarker
  split
  · exact absurd rfl (h _)
  · rfl

/-- Where a step is a duplicate check that finds no marker, no backoff overflows after it. -/
def FitsAt (c : FraudKafkaConsumer) (env : Env) (st : Step World Op.Ret Exn) : Prop :=
  findsNoMarker st.event = true → BackoffFits c env st.pre

theorem FitsAt.of_false {c : FraudKafkaConsumer} {env : Env} {st : Step World Op.Ret Exn}
    (h : findsNoMarker st.event = false) : FitsAt c env st := by
  intro hfinds
  rw [h] at hfinds
  cases hfinds

/-- The processing of a message that parses starts with the duplicate check, which is its only
one. -/
theorem steps_accepted (hc : c.Started) (hredis : c.redis = true) (hw : env.RedisWorks) (m : Message)
    (e : EventEnvelope) :
    ∃ rest, ((c.accepted py m e).run (perform env) w).steps =
        ⟨w, ⟨.redisExists (FraudKafkaConsumer.dedupKey py e.eventId),
          .ok (w.2.redis.exist (env.clock w.1.ops)
            (FraudKafkaConsumer.dedupKey py e.eventId))⟩⟩ :: rest ∧
      ∀ st ∈ rest, ∀ key, st.event.op ≠ .redisExists key := by
  obtain ⟨h, hh, hp⟩ := hc.dlqHandler
  have hcommit : c.commitOffset.Asks fun op => ∀ key, op ≠ .redisExists key := by
    unfold FraudKafkaConsumer.commitOffset
    split
    · exact Prog.asks_await nofun
    · trivial
  have hnone : ∀ {p : Async Unit} (w' : World), (p.Asks fun op => ∀ key, op ≠ .redisExists key) →
      ∀ st ∈ (p.run (perform env) w').steps, ∀ key, st.event.op ≠ .redisExists key :=
    fun w' hp st hst => hp.run _ _ _ (List.mem_map_of_mem hst)
  cases hmark : w.2.redis.exist (env.clock w.1.ops) (FraudKafkaConsumer.dedupKey py e.eventId) with
  | true =>
      rw [run_accepted_of_exist py hredis hw hmark]
      exact ⟨_, rfl, hnone _ hcommit⟩
  | false =>
      rw [run_accepted_of_not_exist py hredis hw hmark]
      refine ⟨_, rfl, hnone _ ?_⟩
      have hhandle : (c.handleWithRetry py m e).Asks fun op => ∀ key, op ≠ .redisExists key := by
        refine (emits_handleWithRetry hh hp m e).asks.mono ?_
        rintro op hop key rfl
        exact hop
      have hrecord : (c.markProcessed py e.eventId).Asks fun op => ∀ key, op ≠ .redisExists key := by
        refine (emits_markProcessed c e.eventId).asks.mono ?_
        rintro op rfl key
        exact nofun
      exact hhandle.bind fun _ => hrecord.bind fun _ => hcommit

/-- The loop takes a message and asks whether it is still running. -/
theorem run_consumeLoop_cons (henv : env.Reliable) (m : Message) (ms : List Message) :
    let y := if env.running (w.1.ops + 1) = true then
        (do
          c.processMessage py m
          c.consumeLoop py ms : Async Unit).run (perform env) w.tick.tick
      else ⟨.ok (), [], w.tick.tick⟩
    (c.consumeLoop py (m :: ms)).run (perform env) w =
      ⟨y.result, ⟨w, ⟨.deliver m, .ok ()⟩⟩ ::
        ⟨w.tick, ⟨.running, .ok (env.running (w.1.ops + 1))⟩⟩ :: y.steps, y.final⟩ := by
  intro y
  have hdeliver : perform env (.deliver m) w = (.ok (), w.tick) := by
    simp [perform, henv.fault]
  have hrunning : perform env .running w.tick = (.ok (env.running (w.1.ops + 1)), w.tick.tick) :=
    rfl
  unfold FraudKafkaConsumer.consumeLoop
  rw [Prog.run_bind, Prog.run_await, hdeliver]
  simp only
  rw [Prog.run_bind, Prog.run_await, hrunning]
  simp only [y]
  split <;> rfl

/-- The events of a loop begin with a delivery, if there are any. -/
theorem turn_consumeLoop (py : PyLib) (c : FraudKafkaConsumer) (henv : env.Reliable)
    (ms : List Message) (w : World) :
    turn ((c.consumeLoop py ms).run (perform env) w).events = [] := by
  cases ms with
  | nil => rfl
  | cons m ms =>
      rw [run_consumeLoop_cons henv]
      rfl

section Handed

variable {m : Message} {e : EventEnvelope}

/-- What a loop does with a message that is handed over and processed to the end: the rest of the
loop follows. -/
theorem consumeLoop_goes (henv : env.Reliable) (he : EventEnvelope.fromJson py m.value = .ok e)
    (ms : List Message) (hrun : env.running (w.1.ops + 1) = true)
    (hok : ((c.accepted py m e).run (perform env) w.tick.tick).result = .ok ()) :
    let x := (c.accepted py m e).run (perform env) w.tick.tick
    let y := (c.consumeLoop py ms).run (perform env) x.final
    ((c.consumeLoop py (m :: ms)).run (perform env) w).steps =
        ⟨w, ⟨.deliver m, .ok ()⟩⟩ :: ⟨w.tick, ⟨.running, .ok true⟩⟩ :: (x.steps ++ y.steps) ∧
      ((c.consumeLoop py (m :: ms)).run (perform env) w).events =
        ⟨.deliver m, .ok ()⟩ :: ⟨.running, .ok true⟩ :: (x.events ++ y.events) := by
  intro x y
  have hsteps : ((c.consumeLoop py (m :: ms)).run (perform env) w).steps =
      ⟨w, ⟨.deliver m, .ok ()⟩⟩ :: ⟨w.tick, ⟨.running, .ok true⟩⟩ :: (x.steps ++ y.steps) := by
    rw [run_consumeLoop_cons henv]
    simp only [hrun, if_true]
    rw [FraudKafkaConsumer.processMessage_of_ok py c he, Prog.run_bind_of_ok hok]
  refine ⟨hsteps, ?_⟩
  unfold Execution.events
  rw [hsteps]
  simp

/-- What a loop does with a message whose processing raises: nothing follows. -/
theorem consumeLoop_stops (henv : env.Reliable) (he : EventEnvelope.fromJson py m.value = .ok e)
    (ms : List Message) (hrun : env.running (w.1.ops + 1) = true) {exc : Exn}
    (hraised : ((c.accepted py m e).run (perform env) w.tick.tick).result = .error exc) :
    let x := (c.accepted py m e).run (perform env) w.tick.tick
    ((c.consumeLoop py (m :: ms)).run (perform env) w).steps =
        ⟨w, ⟨.deliver m, .ok ()⟩⟩ :: ⟨w.tick, ⟨.running, .ok true⟩⟩ :: x.steps ∧
      ((c.consumeLoop py (m :: ms)).run (perform env) w).events =
        ⟨.deliver m, .ok ()⟩ :: ⟨.running, .ok true⟩ :: x.events := by
  intro x
  have hsteps : ((c.consumeLoop py (m :: ms)).run (perform env) w).steps =
      ⟨w, ⟨.deliver m, .ok ()⟩⟩ :: ⟨w.tick, ⟨.running, .ok true⟩⟩ :: x.steps := by
    rw [run_consumeLoop_cons henv]
    simp only [hrun, if_true]
    rw [FraudKafkaConsumer.processMessage_of_ok py c he, Prog.run_bind, hraised]
  refine ⟨hsteps, ?_⟩
  unfold Execution.events
  rw [hsteps]
  simp

/-- Either way its processing is part of the loop. -/
theorem mem_consumeLoop (henv : env.Reliable) (he : EventEnvelope.fromJson py m.value = .ok e)
    (ms : List Message) (hrun : env.running (w.1.ops + 1) = true) {st : Step World Op.Ret Exn}
    (hst : st ∈ ((c.accepted py m e).run (perform env) w.tick.tick).steps) :
    st ∈ ((c.consumeLoop py (m :: ms)).run (perform env) w).steps := by
  cases hresult : ((c.accepted py m e).run (perform env) w.tick.tick).result with
  | ok u =>
      rw [(consumeLoop_goes henv he ms hrun hresult).1]
      exact .tail _ (.tail _ (List.mem_append_left _ hst))
  | error exc =>
      rw [(consumeLoop_stops henv he ms hrun hresult).1]
      exact .tail _ (.tail _ hst)

end Handed

/-- The first message of a loop is checked for a duplicate, and the check sees what was marked at
the start. -/
theorem first_check (hc : c.Started) (hredis : c.redis = true) (henv : env.Reliable) {m : Message}
    {e : EventEnvelope} (he : EventEnvelope.fromJson py m.value = .ok e) {j : String}
    (hj : e.eventId = .str j) (ms : List Message) (hrun : env.running (w.1.ops + 1) = true) {t : ℚ}
    (ht : t ≤ env.clock w.tick.tick.1.ops)
    (hlast : Lasting env t ((c.consumeLoop py (m :: ms)).run (perform env) w).steps) :
    markedAt py (env.clock w.tick.tick.1.ops) w.2.redis j = markedAt py t w.2.redis j ∧
    (⟨w.tick.tick, ⟨.redisExists (FraudKafkaConsumer.dedupKey py (.str j)),
      .ok (markedAt py (env.clock w.tick.tick.1.ops) w.2.redis j)⟩⟩ : Step World Op.Ret Exn) ∈
        ((c.consumeLoop py (m :: ms)).run (perform env) w).steps := by
  obtain ⟨rest, hsteps, -⟩ := steps_accepted (w := w.tick.tick) hc hredis henv.redisWorks m e
  rw [hj] at hsteps
  have hmem : (⟨w.tick.tick, ⟨.redisExists (FraudKafkaConsumer.dedupKey py (.str j)),
      .ok (markedAt py (env.clock w.tick.tick.1.ops) w.2.redis j)⟩⟩ : Step World Op.Ret Exn) ∈
        ((c.consumeLoop py (m :: ms)).run (perform env) w).steps := by
    refine mem_consumeLoop henv he ms hrun ?_
    rw [hsteps]
    exact List.mem_cons_self
  exact ⟨hlast.markedAt_eq py hmem ht j, hmem⟩

/-- The loop is accounted for from the Redis it starts in, and hands on every message it is given
unless it is stopped, as long as no backoff overflows. -/
theorem accounted_consumeLoop (hc : c.Started) (hredis : c.redis = true) (httl : 0 < c.dedupTtl)
    (henv : env.Healthy) (hexc : ∀ k x, env.handler k = some x → x.isException = true)
    (hclock : Monotone env.clock) (messages : List Message)
    (hwf : ∀ m ∈ messages, ∃ id, Carries py m id) {t : ℚ} (ht : t ≤ env.clock w.1.ops)
    (hlast : Lasting env t ((c.consumeLoop py messages).run (perform env) w).steps)
    (hfits : ∀ st ∈ ((c.consumeLoop py messages).run (perform env) w).steps, FitsAt c env st) :
    Accounted py c (markedAt py t w.2.redis)
      ((c.consumeLoop py messages).run (perform env) w).events ∧
    ((∀ n, env.running n = true) → ∀ m ∈ messages, ∀ id, Carries py m id →
      Handed py id (turns ((c.consumeLoop py messages).run (perform env) w).events)) := by
  induction messages generalizing w with
  | nil => exact ⟨Accounted.nil, fun _ m hm => absurd hm List.not_mem_nil⟩
  | cons m ms ih =>
      obtain ⟨j, e, he, hj⟩ := hwf m List.mem_cons_self
      have hm : Carries py m j := ⟨e, he, hj⟩
      cases hrun : env.running (w.1.ops + 1) with
      | false =>
          rw [run_consumeLoop_cons henv.toReliable]
          simp only [hrun, Bool.false_eq_true, if_false]
          refine ⟨Accounted.stopped m, ?_⟩
          intro halways
          rw [halways] at hrun
          cases hrun
      | true =>
          have hlater : t ≤ env.clock w.tick.tick.1.ops :=
            ht.trans (hclock ((Nat.le_succ _).trans (Nat.le_succ _)))
          obtain ⟨hnow, hfirst⟩ := first_check hc hredis henv.toReliable he hj ms hrun hlater hlast
          obtain ⟨hok, hturn⟩ := settlesTurn_accepted py (m := m) hc hredis httl henv hexc hclock
            (EventEnvelope.WF.of_fromJson he) hj hlater hnow
            fun hmark => hfits _ hfirst (congrArg (!·) (hnow.trans hmark))
          obtain ⟨hsteps, hevents⟩ := consumeLoop_goes henv.toReliable he ms hrun hok
          have hrest : ∀ st ∈ ((c.consumeLoop py ms).run (perform env)
              ((c.accepted py m e).run (perform env) w.tick.tick).final).steps,
              st ∈ ((c.consumeLoop py (m :: ms)).run (perform env) w).steps := by
            intro st hst
            rw [hsteps]
            exact .tail _ (.tail _ (List.mem_append_right _ hst))
          have hops := ops_le_final (c.accepted py m e) env w.tick.tick
          obtain ⟨hloop, hhanded⟩ := ih (fun m' hm' => hwf m' (List.mem_cons_of_mem _ hm'))
            (hlater.trans (hclock hops)) (hlast.sublist hrest) fun st hst => hfits st (hrest st hst)
          have hbreak := turn_consumeLoop py c henv.toReliable ms
            ((c.accepted py m e).run (perform env) w.tick.tick).final
          have hall := Accounted.cons hm hturn hloop hbreak
          have hturns := turns_turn m hturn.no_delivery hbreak
          rw [hevents]
          refine ⟨hall, ?_⟩
          intro halways m' hm' id hid
          rw [hturns, handed_turn hm]
          rcases List.mem_cons.mp hm' with rfl | hm'
          · exact Or.inl (hm.unique hid)
          · exact Or.inr (hhanded halways m' hm' id hid)

/-- The overflow of a loop is in its rest, if it is not in the first message. -/
theorem exists_overflow_rest (hc : c.Started) (hredis : c.redis = true) (henv : env.Reliable)
    {m : Message} {e : EventEnvelope} (he : EventEnvelope.fromJson py m.value = .ok e)
    (ms : List Message) (hrun : env.running (w.1.ops + 1) = true)
    (hok : ((c.accepted py m e).run (perform env) w.tick.tick).result = .ok ())
    (hfits : w.2.redis.exist (env.clock w.tick.tick.1.ops)
      (FraudKafkaConsumer.dedupKey py e.eventId) = false → BackoffFits c env w.tick.tick)
    (hover : ∃ st ∈ ((c.consumeLoop py (m :: ms)).run (perform env) w).steps, ¬ FitsAt c env st) :
    ∃ st ∈ ((c.consumeLoop py ms).run (perform env)
      ((c.accepted py m e).run (perform env) w.tick.tick).final).steps, ¬ FitsAt c env st := by
  obtain ⟨st, hst, hnot⟩ := hover
  rw [(consumeLoop_goes henv he ms hrun hok).1] at hst
  rcases List.mem_cons.mp hst with rfl | hst
  · exact absurd (FitsAt.of_false rfl) hnot
  rcases List.mem_cons.mp hst with rfl | hst
  · exact absurd (FitsAt.of_false rfl) hnot
  rcases List.mem_append.mp hst with hturn | hst
  · obtain ⟨rest, hsteps, hothers⟩ :=
      steps_accepted (w := w.tick.tick) hc hredis henv.redisWorks m e
    rw [hsteps] at hturn
    rcases List.mem_cons.mp hturn with rfl | hother
    · -- the check of the first message
      refine absurd ?_ hnot
      intro hfinds
      exact hfits ((Bool.not_eq_true' _).mp hfinds)
    · exact absurd (FitsAt.of_false (findsNoMarker_of_ne (hothers st hother))) hnot
  · exact ⟨st, hst, hnot⟩

/-- Where a backoff overflows, an id that was not marked is handed over and has no outcome. -/
theorem unsettled_consumeLoop (hc : c.Started) (hredis : c.redis = true) (httl : 0 < c.dedupTtl)
    (henv : env.Healthy) (hexc : ∀ k x, env.handler k = some x → x.isException = true)
    (hclock : Monotone env.clock) (messages : List Message)
    (hwf : ∀ m ∈ messages, ∃ id, Carries py m id) {t : ℚ} (ht : t ≤ env.clock w.1.ops)
    (hlast : Lasting env t ((c.consumeLoop py messages).run (perform env) w).steps)
    (hover : ∃ st ∈ ((c.consumeLoop py messages).run (perform env) w).steps, ¬ FitsAt c env st) :
    ∃ id, markedAt py t w.2.redis id = false ∧
      Handed py id (turns ((c.consumeLoop py messages).run (perform env) w).events) ∧
      ¬ OneOutcome c (tally py id ((c.consumeLoop py messages).run (perform env) w).events) := by
  induction messages generalizing w with
  | nil =>
      obtain ⟨st, hst, -⟩ := hover
      cases hst
  | cons m ms ih =>
      obtain ⟨j, e, he, hj⟩ := hwf m List.mem_cons_self
      have hm : Carries py m j := ⟨e, he, hj⟩
      cases hrun : env.running (w.1.ops + 1) with
      | false =>
          -- a loop that is stopped checks nothing
          obtain ⟨st, hst, hnot⟩ := hover
          rw [run_consumeLoop_cons henv.toReliable] at hst
          simp only [hrun, Bool.false_eq_true, if_false, List.mem_cons, List.not_mem_nil,
            or_false] at hst
          rcases hst with rfl | rfl
          · exact absurd (FitsAt.of_false rfl) hnot
          · exact absurd (FitsAt.of_false rfl) hnot
      | true =>
          have hlater : t ≤ env.clock w.tick.tick.1.ops :=
            ht.trans (hclock ((Nat.le_succ _).trans (Nat.le_succ _)))
          obtain ⟨hnow, -⟩ := first_check hc hredis henv.toReliable he hj ms hrun hlater hlast
          by_cases hfits : markedAt py t w.2.redis j = false → BackoffFits c env w.tick.tick
          · obtain ⟨hok, hturn⟩ := settlesTurn_accepted py (m := m) hc hredis httl henv hexc hclock
              (EventEnvelope.WF.of_fromJson he) hj hlater hnow hfits
            obtain ⟨hsteps, hevents⟩ := consumeLoop_goes henv.toReliable he ms hrun hok
            have hrest : ∀ st ∈ ((c.consumeLoop py ms).run (perform env)
                ((c.accepted py m e).run (perform env) w.tick.tick).final).steps,
                st ∈ ((c.consumeLoop py (m :: ms)).run (perform env) w).steps := by
              intro st hst
              rw [hsteps]
              exact .tail _ (.tail _ (List.mem_append_right _ hst))
            have hover' := exists_overflow_rest hc hredis henv.toReliable he ms hrun hok
              (fun hmark => hfits (hnow.symm.trans (by rw [hj] at hmark; exact hmark))) hover
            have hops := ops_le_final (c.accepted py m e) env w.tick.tick
            obtain ⟨id, hunmarked, hhanded, hnone⟩ := ih
              (fun m' hm' => hwf m' (List.mem_cons_of_mem _ hm')) (hlater.trans (hclock hops))
              (hlast.sublist hrest) hover'
            -- the id of the first message is marked by now, so the overflow is on another one
            have hne : j ≠ id := by
              rintro rfl
              rw [hturn.marked_self] at hunmarked
              cases hunmarked
            obtain ⟨hsame, hzero⟩ := hturn.other hne
            have hbreak := turn_consumeLoop py c henv.toReliable ms
              ((c.accepted py m e).run (perform env) w.tick.tick).final
            refine ⟨id, hsame ▸ hunmarked, ?_, ?_⟩
            · rw [hevents, turns_turn m hturn.no_delivery hbreak, handed_turn hm]
              exact Or.inr hhanded
            · rw [hevents, tally_cons, tally_cons, tally_append, hzero]
              simpa [tallyOf] using hnone
          · -- the first message overflows, and the loop ends there
            rw [Classical.not_imp] at hfits
            obtain ⟨hmark, hover⟩ := hfits
            have hexist : w.tick.tick.2.redis.exist (env.clock w.tick.tick.1.ops)
                (FraudKafkaConsumer.dedupKey py e.eventId) = false := by
              rw [hj]
              exact hnow.trans hmark
            obtain ⟨⟨exc, hraised⟩, n, htally⟩ := tally_of_overflow py (m := m) hc hredis henv hexc hj
              hover hexist
            have hevents := (consumeLoop_stops henv.toReliable he ms hrun hraised).2
            refine ⟨j, hmark, ?_, ?_⟩
            · rw [hevents, turns_delivery, handed_cons]
              exact Or.inl ⟨hm, List.mem_cons_self⟩
            · rw [hevents, tally_cons, tally_cons, htally]
              simpa [tallyOf] using not_oneOutcome_failed c n

end Loop

/-- Every event id that a run of `consume` is handed has exactly one outcome, unless it was marked
before the run; every later delivery of the id is skipped and committed. -/
structure OnePerEvent (py : PyLib) (c : FraudKafkaConsumer) (env : Env) (messages : List Message)
    (marked : String → Bool) (es : List Event) : Prop extends Accounted py c marked es where
  handed : (∀ n, env.running n = true) → ∀ m ∈ messages, ∀ id, Carries py m id →
    Handed py id (turns es)

/-- A run of a started consumer is a run of its loop. -/
theorem run_consume (py : PyLib) {c : FraudKafkaConsumer} (hc : c.Started) (env : Env) (w : World)
    (messages : List Message) :
    ((c.consume py messages).run (perform env) w).steps
        = ((c.consumeLoop py messages).run (perform env) w).steps ∧
      ((c.consume py messages).run (perform env) w).events
        = ((c.consumeLoop py messages).run (perform env) w).events := by
  simp only [FraudKafkaConsumer.consume, hc.running, hc.consumer, Bool.not_true, Bool.or_self,
    Bool.false_eq_true, if_false]
  refine ⟨?_, Prog.events_tryExcept_pure⟩
  rw [Prog.run_tryExcept]
  cases ((c.consumeLoop py messages).run (perform env) w).result with
  | ok u => rfl
  | error x => simp only; split <;> simp

/-- While Redis and the broker work and no marker expires, every event id that a run of `consume` is
handed has exactly one outcome, and every later delivery is skipped and committed, if and only if no
backoff overflows after a check that found no marker. -/
theorem one_outcome_per_event_iff (py : PyLib) {c : FraudKafkaConsumer} (hc : c.Started)
    (hredis : c.redis = true) (httl : 0 < c.dedupTtl)
    -- Redis and the broker work, the handler raises nothing but an `Exception`
    {env : Env} (henv : env.Healthy)
    (hexc : ∀ k x, env.handler k = some x → x.isException = true) (hclock : Monotone env.clock)
    (w : World) (messages : List Message) (hwf : ∀ m ∈ messages, ∃ id, Carries py m id)
    -- no marker expires during the run
    (hlast : Lasting env (env.clock w.1.ops) ((c.consume py messages).run (perform env) w).steps) :
    OnePerEvent py c env messages (markedAt py (env.clock w.1.ops) w.2.redis)
        ((c.consume py messages).run (perform env) w).events ↔
      ∀ st ∈ ((c.consume py messages).run (perform env) w).steps, FitsAt c env st := by
  obtain ⟨hsteps, hevents⟩ := run_consume py hc env w messages
  rw [hsteps] at hlast ⊢
  rw [hevents]
  constructor
  · intro h
    by_contra hover
    push Not at hover
    obtain ⟨id, hmark, hhanded, hnone⟩ := unsettled_consumeLoop hc hredis httl henv hexc hclock
      messages hwf le_rfl hlast hover
    exact hnone (h.settled id hmark hhanded)
  · intro hfits
    obtain ⟨hall, hhanded⟩ := accounted_consumeLoop hc hredis httl henv hexc hclock messages hwf
      le_rfl hlast hfits
    exact ⟨hall, hhanded⟩

/-- With at most 1024 attempts no backoff overflows. -/
theorem FitsAt.of_maxRetries {c : FraudKafkaConsumer} (h : c.maxRetries ≤ 1024) (env : Env)
    (st : Step World Op.Ret Exn) : FitsAt c env st := fun _ => Or.inl h

/-- Nor does one where the handler never fails 1025 times in a row. -/
theorem FitsAt.of_handler {env : Env} (h : ∀ n, ∃ k < 1025, env.handler (n + k) = none)
    (c : FraudKafkaConsumer) (st : Step World Op.Ret Exn) : FitsAt c env st := by
  intro _
  right
  intro hfails
  obtain ⟨k, hk, hreturns⟩ := h st.pre.1.handled
  obtain ⟨x, hx⟩ := hfails k hk
  rw [hreturns] at hx
  cases hx

/-! ### Two deliveries, and a handler that never returns -/

theorem carries_sample : Carries CompactJson.compactJson sampleMessage "e-1" :=
  ⟨sampleEvent, fromJson_sampleMessage, rfl⟩

/-- Two deliveries of one event have one outcome between them. -/
theorem one_outcome_per_event_sample :
    OnePerEvent CompactJson.compactJson sampleConsumer Env.calm [sampleMessage, sampleMessage]
        (markedAt CompactJson.compactJson 0 World.fresh.2.redis)
        ((sampleConsumer.consume CompactJson.compactJson [sampleMessage, sampleMessage]).run
          (perform Env.calm) World.fresh).events := by
  have hc : sampleConsumer.Started := FraudKafkaConsumer.started_connected _ rfl
  have hwf : ∀ m ∈ [sampleMessage, sampleMessage], ∃ id, Carries CompactJson.compactJson m id := by
    intro m hmem
    simp only [List.mem_cons, List.not_mem_nil, or_self, or_false] at hmem
    exact ⟨"e-1", hmem ▸ carries_sample⟩
  have hiff := one_outcome_per_event_iff CompactJson.compactJson hc rfl (by decide)
    Env.calm_healthy nofun monotone_const World.fresh [sampleMessage, sampleMessage] hwf
    (fun _ _ _ _ _ hlive => hlive)
  exact hiff.mpr fun st _ => FitsAt.of_maxRetries (by decide) _ st

/-- A consumer with 1025 attempts for each event. -/
def stubbornConsumer : FraudKafkaConsumer := { sampleConsumer with maxRetries := 1025 }

theorem raisingEnv_healthy : raisingEnv.Healthy := ⟨⟨fun _ _ => rfl⟩, fun _ => rfl⟩

theorem stubbornConsumer_started : stubbornConsumer.Started :=
  ⟨rfl, rfl, _, rfl, rfl⟩

/-- A handler that never returns: the backoff of the last attempt overflows, and the event is
neither handled nor sent to the dead-letter topic. -/
theorem overflow_no_outcome : ¬ ∀ (c : FraudKafkaConsumer) (env : Env) (messages : List Message),
    c.Started → c.redis = true → 1 ≤ c.maxRetries → env.Healthy →
    (∀ k x, env.handler k = some x → x.isException = true) → Monotone env.clock →
    (∀ m ∈ messages, ∃ id, Carries CompactJson.compactJson m id) →
    Lasting env (env.clock World.fresh.1.ops) ((c.consume CompactJson.compactJson messages).run (perform env)
      World.fresh).steps →
    OnePerEvent CompactJson.compactJson c env messages
      (markedAt CompactJson.compactJson (env.clock World.fresh.1.ops) World.fresh.2.redis)
      ((c.consume CompactJson.compactJson messages).run (perform env) World.fresh).events := by
  intro hclaim
  have hexc : ∀ k x, raisingEnv.handler k = some x → x.isException = true := by
    intro k x hx
    cases hx
    rfl
  have hwf : ∀ m ∈ [sampleMessage], ∃ id, Carries CompactJson.compactJson m id := by
    intro m hmem
    exact ⟨"e-1", List.mem_singleton.mp hmem ▸ carries_sample⟩
  have hlast : ∀ steps, Lasting raisingEnv 0 steps := fun _ _ _ _ _ _ hlive => hlive
  obtain ⟨hsteps, hevents⟩ := run_consume CompactJson.compactJson stubbornConsumer_started raisingEnv
    World.fresh [sampleMessage]
  have hmonotone : Monotone raisingEnv.clock := monotone_const
  have hzero : (0 : ℚ) ≤ raisingEnv.clock World.fresh.1.ops := le_rfl
  have hlater : (0 : ℚ) ≤ raisingEnv.clock World.fresh.tick.tick.1.ops := le_rfl
  have hcheck := (first_check stubbornConsumer_started rfl raisingEnv_healthy.toReliable
    fromJson_sampleMessage rfl [] rfl hlater (hlast _)).2
  have hover : ¬ FitsAt stubbornConsumer raisingEnv
      ⟨World.fresh.tick.tick, ⟨.redisExists (FraudKafkaConsumer.dedupKey CompactJson.compactJson
        (.str "e-1")), .ok (markedAt CompactJson.compactJson
          (raisingEnv.clock World.fresh.tick.tick.1.ops) World.fresh.2.redis "e-1")⟩⟩ := by
    intro hfits
    rcases hfits rfl with hmax | hreturns
    · exact absurd hmax (by decide)
    · exact hreturns fun k _ => ⟨_, rfl⟩
  obtain ⟨id, hmark, hhanded, hnone⟩ := unsettled_consumeLoop stubbornConsumer_started rfl (by decide)
    raisingEnv_healthy hexc hmonotone [sampleMessage] hwf hzero (hlast _) ⟨_, hcheck, hover⟩
  have hone := hclaim stubbornConsumer raisingEnv [sampleMessage] stubbornConsumer_started rfl
    (by decide) raisingEnv_healthy hexc hmonotone hwf (hlast _)
  rw [hevents] at hone
  exact hnone (hone.settled id hmark hhanded)

end FraudDetection.Kafka
