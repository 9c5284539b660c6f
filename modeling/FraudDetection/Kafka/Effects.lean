import Mathlib.Algebra.Order.Field.Rat
import FraudDetection.Async.Program
import FraudDetection.Store.Keyspace
import FraudDetection.Kafka.Envelope

/-!
# The outside world of `kafka_utils`

The operations the Kafka helpers await or read, the shared state they act on (Redis and the topics
of the broker), and `perform`, which answers one operation of one process. What is not determined by
that state is taken from an `Env`: clock readings, generated ids, the outcome of each handler call
and of each send, and the fault, if any, of every other call.
-/

namespace FraudDetection.Kafka

open Async Python Store

/-! ## Records -/

/-- A record as the broker stores it and as a consumer without deserialisers sees it. -/
structure Record where
  topic : String
  key : Option ByteArray
  value : Option ByteArray
  offset : ℕ

/-- A record as `FraudKafkaConsumer` sees it: the key decoded, the value left as bytes. -/
structure Message where
  topic : String
  key : Option String
  value : Option ByteArray
  offset : ℕ

/-- What a producer hands to `send_and_wait`. -/
structure ProducerRecord where
  topic : String
  key : Json
  value : ByteArray

/-- `key_serializer`: text is encoded, anything else passed on. The Kafka client then takes bytes or
no key, and raises before it sends anything if the key is something else. -/
def keySerializer : Json → Except Exn (Option ByteArray)
  | .str s => .ok (some s.toUTF8)
  | .null => .ok none
  | _ => .error ⟨.typeError, "a bytes-like object is required"⟩

/-- The Kafka client takes the key. -/
def Sendable (key : Json) : Prop := ∃ bytes, keySerializer key = .ok bytes

theorem sendable_str (s : String) : Sendable (.str s) := ⟨_, rfl⟩

/-- `key_deserializer`: an empty or missing key is `None`, any other key is decoded. -/
def keyDeserializer (key : Option ByteArray) : Except Exn (Option String) :=
  match key with
  | some k => if k.isEmpty then .ok none else some <$> decodeUtf8 k
  | none => .ok none

/-- A non-empty text key comes back as it was sent. -/
theorem keyDeserializer_toUTF8 {k : String} (hk : k ≠ "") :
    keyDeserializer (some k.toUTF8) = .ok (some k) := by
  have hne : k.toUTF8.isEmpty = false := by
    by_contra hempty
    rw [Bool.not_eq_false] at hempty
    apply hk
    apply String.utf8ByteSize_eq_zero_iff.mp
    simpa [ByteArray.isEmpty] using hempty
  simp only [keyDeserializer, hne, Bool.false_eq_true, if_false, decodeUtf8_toUTF8]
  rfl

/-- The record the broker stores for an accepted send. -/
def ProducerRecord.stored (r : ProducerRecord) (offset : ℕ) : Record :=
  ⟨r.topic, (keySerializer r.key).toOption.join, some r.value, offset⟩

/-- The message a consumer receives for a stored record. -/
def Record.message (r : Record) : Except Exn Message :=
  (fun key => ⟨r.topic, key, r.value, r.offset⟩) <$> keyDeserializer r.key

/-! ## Operations -/

/-- The awaited calls, and the reads of state that changes behind the program's back. -/
inductive Op where
  | redisExists (key : String)
  | redisSet (key value : String) (ex : ℤ)
  | handlerFn (envelope : EventEnvelope)
  | sendAndWait (topic : String) (key : Json) (value : ByteArray)
  | commit
  | deliver (message : Message)
  | running
  | start
  | stop
  | getmany (topic : String) (maxPollRecords : ℕ)
  | uuid4
  | isoNow
  | sleep (seconds : ℚ)

/-- The reply type of each operation. -/
@[reducible] def Op.Ret : Op → Type
  | .redisExists _ => Bool
  | .running => Bool
  | .getmany _ _ => List (List Record)
  | .uuid4 => String
  | .isoNow => String
  | _ => Unit

/-- An asynchronous computation of `kafka_utils`. -/
abbrev Async (α : Type) := Prog Op.Ret Exn α

/-- `await` of one operation. -/
abbrev await (op : Op) : Async op.Ret := Prog.await op

/-- An operation with its reply. -/
abbrev Event := FraudDetection.Async.Event Op.Ret Exn

/-! ## The world -/

/-- What one process meets: `clock`, `uuid`, `isoNow`, `running` and `fault` are indexed by the
number of operations it has performed, `handler` and `send` by the number of calls of that kind. -/
structure Env where
  clock : ℕ → ℚ
  handler : ℕ → Option Exn
  send : ℕ → Option Exn
  fault : ℕ → Op → Option Exn
  running : ℕ → Bool
  uuid : ℕ → String
  isoNow : ℕ → String
  batch : List (List Record)

/-- An environment in which every call goes through, at time zero. -/
def Env.calm : Env where
  clock := fun _ => 0
  handler := fun _ => none
  send := fun _ => none
  fault := fun _ _ => none
  running := fun _ => true
  uuid := fun n => "id-" ++ toString n
  isoNow := fun n => "now-" ++ toString n
  batch := []

/-- The environment in which `getmany` returns the given records. -/
def Env.withBatch (env : Env) (records : List Record) : Env := { env with batch := [records] }

/-- How a send ends under a key: the exception of the Kafka client or of the broker, if any. -/
def Env.sent (env : Env) (n : ℕ) (key : Json) : Option Exn :=
  match keySerializer key with
  | .ok _ => env.send n
  | .error x => some x

@[simp] theorem Env.sent_str (env : Env) (n : ℕ) (s : String) : env.sent n (.str s) = env.send n := rfl

theorem Env.sent_of_sendable {key : Json} (h : Sendable key) (env : Env) (n : ℕ) :
    env.sent n key = env.send n := by
  obtain ⟨bytes, hbytes⟩ := h
  rw [sent, hbytes]

theorem Env.sent_of_not_sendable {key : Json} (h : ¬ Sendable key) (env : Env) (n : ℕ) :
    ∃ x, env.sent n key = some x ∧ x.cls = .typeError := by
  cases key with
  | null => exact absurd ⟨_, rfl⟩ h
  | str s => exact absurd ⟨_, rfl⟩ h
  | _ => exact ⟨_, rfl, rfl⟩

/-- How far a process has got through its `Env`. -/
structure Counters where
  ops : ℕ
  handled : ℕ
  sends : ℕ

/-- The state shared by all processes: Redis, and the records accepted by the broker. -/
structure Cluster where
  redis : Keyspace String String ℚ
  topics : List ProducerRecord

/-- The state one process acts on. -/
abbrev World := Counters × Cluster

/-- A process that has done nothing yet, on an empty cluster. -/
def World.fresh : World := (⟨0, 0, 0⟩, ⟨fun _ => none, []⟩)

namespace World

/-- One more operation performed. -/
def tick (w : World) : World := ({ w.1 with ops := w.1.ops + 1 }, w.2)

@[simp] theorem tick_ops (w : World) : w.tick.1.ops = w.1.ops + 1 := rfl
@[simp] theorem tick_handled (w : World) : w.tick.1.handled = w.1.handled := rfl
@[simp] theorem tick_sends (w : World) : w.tick.1.sends = w.1.sends := rfl
@[simp] theorem tick_cluster (w : World) : w.tick.2 = w.2 := rfl

end World

/-- A call that raises the given fault, or goes through with the given effect. -/
def orFault {α : Type} (fault : Option Exn) (w : World) (effect : Except Exn α × World) :
    Except Exn α × World :=
  match fault with
  | some x => (.error x, w)
  | none => effect

@[simp] theorem orFault_none {α : Type} (w : World) (effect : Except Exn α × World) :
    orFault none w effect = effect := rfl

@[simp] theorem orFault_some {α : Type} (x : Exn) (w : World) (effect : Except Exn α × World) :
    orFault (some x) w effect = (.error x, w) := rfl

/-- A call without an effect on the state leaves it in either case. -/
theorem orFault_snd {α : Type} (fault : Option Exn) (w : World) (a : Except Exn α) :
    (orFault fault w (a, w)).2 = w := by
  cases fault <;> rfl

/-- A call that goes through returns what its effect does. -/
theorem orFault_fst {α : Type} {fault : Option Exn} {w : World} {effect : Except Exn α × World}
    {a : α} (h : (orFault fault w effect).1 = .ok a) : effect.1 = .ok a := by
  cases fault with
  | none => exact h
  | some x => cases h

/-- Answer one operation. `SET` with a non-positive expiry is refused by Redis. -/
def perform (env : Env) (op : Op) (w : World) : Except Exn op.Ret × World :=
  let n := w.1.ops
  match op with
  | .redisExists key =>
      orFault (env.fault n (.redisExists key)) w.tick
        (.ok (w.2.redis.exist (env.clock n) key), w.tick)
  | .redisSet key value ex =>
      orFault (env.fault n (.redisSet key value ex)) w.tick
        (if ex ≤ 0 then
          (.error ⟨.other "ResponseError", "invalid expire time in 'set' command"⟩, w.tick)
        else
          (.ok (), (w.tick.1,
            { w.2 with redis := w.2.redis.set key value (some (env.clock n + ex)) })))
  | .handlerFn _ =>
      -- a call uses up one outcome of the handler, also when it raises
      let w' := ({ w.tick.1 with handled := w.1.handled + 1 }, w.2)
      orFault (env.handler w.1.handled) w' (.ok (), w')
  | .sendAndWait topic key value =>
      let c := { w.tick.1 with sends := w.1.sends + 1 }
      orFault (env.sent w.1.sends key) (c, w.2)
        (.ok (), (c, { w.2 with topics := w.2.topics ++ [⟨topic, key, value⟩] }))
  | .commit => orFault (env.fault n .commit) w.tick (.ok (), w.tick)
  | .deliver m => orFault (env.fault n (.deliver m)) w.tick (.ok (), w.tick)
  | .running => (.ok (env.running n), w.tick)
  | .start => orFault (env.fault n .start) w.tick (.ok (), w.tick)
  | .stop => orFault (env.fault n .stop) w.tick (.ok (), w.tick)
  | .getmany topic k => orFault (env.fault n (.getmany topic k)) w.tick (.ok env.batch, w.tick)
  | .uuid4 => (.ok (env.uuid n), w.tick)
  | .isoNow => (.ok (env.isoNow n), w.tick)
  | .sleep t => orFault (env.fault n (.sleep t)) w.tick (.ok (), w.tick)

/-! ## What one operation does -/

/-- The counters after an operation. -/
def Counters.after (k : Counters) : Op → Counters
  | .handlerFn _ => { k with ops := k.ops + 1, handled := k.handled + 1 }
  | .sendAndWait _ _ _ => { k with ops := k.ops + 1, sends := k.sends + 1 }
  | _ => { k with ops := k.ops + 1 }

theorem Counters.after_ops (k : Counters) (op : Op) : (k.after op).ops = k.ops + 1 := by
  cases op <;> rfl

/-- The progress of a process does not depend on how its operations go. -/
theorem perform_counters (env : Env) (op : Op) (w : World) :
    (perform env op w).2.1 = w.1.after op := by
  cases op with
  | redisSet key v ex =>
      by_cases hex : ex ≤ 0 <;>
        cases hf : env.fault w.1.ops (.redisSet key v ex) <;> simp [perform, hf, hex] <;> rfl
  | handlerFn e => cases hf : env.handler w.1.handled <;> simp [perform, hf] <;> rfl
  | sendAndWait t k v => cases hf : env.sent w.1.sends k <;> simp [perform, hf] <;> rfl
  | running => rfl
  | uuid4 => rfl
  | isoNow => rfl
  | _ =>
      simp only [perform]
      cases env.fault _ _ <;> rfl

/-- Redis changes in one way only: an accepted `SET` with a positive expiry. -/
theorem perform_redis (env : Env) (op : Op) (w : World) :
    (perform env op w).2.2.redis = w.2.redis ∨
      ∃ key v ex, op = .redisSet key v ex ∧ 0 < ex ∧
        (perform env (.redisSet key v ex) w).1 = .ok () ∧
        (perform env op w).2.2.redis =
          w.2.redis.set key v (some (env.clock w.1.ops + ex)) := by
  cases op with
  | redisSet key v ex =>
      by_cases hex : ex ≤ 0
      · left
        cases hf : env.fault w.1.ops (.redisSet key v ex) <;> simp [perform, hf, hex]
      · cases hf : env.fault w.1.ops (.redisSet key v ex) with
        | some x => left; simp [perform, hf]
        | none => right; exact ⟨key, v, ex, rfl, by omega, by simp [perform, hf, hex]⟩
  | handlerFn e => left; cases hf : env.handler w.1.handled <;> simp [perform, hf]
  | sendAndWait t k v => left; cases hf : env.sent w.1.sends k <;> simp [perform, hf]
  | running => exact Or.inl rfl
  | uuid4 => exact Or.inl rfl
  | isoNow => exact Or.inl rfl
  | _ => left; simp only [perform]; cases env.fault _ _ <;> rfl

/-- `EXISTS` is answered from the key space at the time of the call. -/
theorem perform_exists {env : Env} {key : String} {w : World} {b : Bool}
    (h : (perform env (.redisExists key) w).1 = .ok b) :
    b = w.2.redis.exist (env.clock w.1.ops) key := by
  simp only [perform] at h
  cases hf : env.fault w.1.ops (.redisExists key) with
  | some x => simp [hf] at h
  | none => simpa [hf] using h.symm

end FraudDetection.Kafka
