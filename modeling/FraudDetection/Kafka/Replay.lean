import Mathlib.Data.List.Forall2
import FraudDetection.Kafka.Runs

/-!
# Replaying dead letters

What `DLQHandler.replay` sends for each record of its batch. A record is `Recovers`ed if the fields
of an event can be read off it and its key decodes; then one send of the rebuilt event follows,
under the key or else the id of the event, and otherwise none.

`run_replayRecord_of_recovers` and `replayRecord_fails` say how the loop's body runs on the two
kinds of records. `run_replayRecords` lifts them to the loop by induction on the batch: the sends
that went through belong to a sublist of the records, one for each, and it is the whole batch
exactly when every record can be recovered and the broker accepts every send.
-/

namespace FraudDetection.Kafka

open Async Python Store

/-! ## Accepted sends -/

/-- The record an event hands to the broker, if the broker accepted it. -/
def accepted? (ev : Event) : Option ProducerRecord :=
  match ev with
  | ⟨.sendAndWait topic key value, .ok _⟩ => some ⟨topic, key, value⟩
  | _ => none

/-- The records the broker accepted, in order. -/
def published (es : List Event) : List ProducerRecord := es.filterMap accepted?

@[simp] theorem published_nil : published [] = [] := rfl

@[simp] theorem published_append (es fs : List Event) :
    published (es ++ fs) = published es ++ published fs :=
  List.filterMap_append

@[simp] theorem published_send_ok (topic : String) (key : Json) (value : ByteArray)
    (es : List Event) :
    published (⟨.sendAndWait topic key value, .ok ()⟩ :: es) = ⟨topic, key, value⟩ :: published es :=
  rfl

@[simp] theorem published_send_error (topic : String) (key : Json) (value : ByteArray) (x : Exn)
    (es : List Event) :
    published (⟨.sendAndWait topic key value, .error x⟩ :: es) = published es := rfl

@[simp] theorem published_uuid4 (r : Except Exn String) (es : List Event) :
    published (⟨.uuid4, r⟩ :: es) = published es := rfl

@[simp] theorem published_isoNow (r : Except Exn String) (es : List Event) :
    published (⟨.isoNow, r⟩ :: es) = published es := rfl

/-- Nothing but a send publishes. -/
theorem published_of_ne {op : Op} (h : ∀ topic key value, op ≠ .sendAndWait topic key value)
    (r : Except Exn op.Ret) : published [⟨op, r⟩] = [] := by
  cases op with
  | sendAndWait topic key value => exact absurd rfl (h topic key value)
  | _ => rfl

/-- An operation that leaves the topics alone, whether it fails or not. -/
theorem topics_orFault {α : Type} (fault : Option Exn) {w : World} {effect : Except Exn α × World}
    (h : effect.2.2.topics = w.2.topics) : (orFault fault w effect).2.2.topics = w.2.topics := by
  cases fault with
  | none => exact h
  | some x => rfl

/-- One step appends what it publishes to the topics. -/
theorem perform_topics (env : Env) (op : Op) (w : World) :
    (perform env op w).2.2.topics = w.2.topics ++ published [⟨op, (perform env op w).1⟩] := by
  by_cases hsend : ∃ topic key value, op = .sendAndWait topic key value
  · obtain ⟨topic, key, value, rfl⟩ := hsend
    simp only [perform]
    cases env.sent w.1.sends key with
    | none => rfl
    | some x => exact (List.append_nil _).symm
  -- nothing but a send touches the topics
  · push Not at hsend
    rw [published_of_ne hsend, List.append_nil]
    cases op with
    | sendAndWait topic key value => exact absurd rfl (hsend topic key value)
    | redisSet key v ex =>
        refine topics_orFault _ ?_
        split <;> rfl
    | running => rfl
    | uuid4 => rfl
    | isoNow => rfl
    | _ => exact topics_orFault _ rfl

/-- A run appends what it publishes to the topics. -/
theorem topics_run {α : Type} (p : Async α) (env : Env) (w : World) :
    (p.run (perform env) w).final.2.topics
      = w.2.topics ++ published (p.run (perform env) w).events := by
  induction p generalizing w with
  | pure a => simp [Prog.run, Execution.events]
  | raise e => simp [Prog.run, Execution.events]
  | call op k ih =>
      have hstep := perform_topics env op w
      simp only [Prog.run, Execution.events, List.map_cons]
      rw [ih, hstep, List.append_assoc, ← published_append]
      rfl

namespace DLQHandler

/-! ## Recovering an event from a dead letter -/

/-- The event inside a dead-letter record has the fields `fs`, and the record the key `key`. -/
structure Recovers (py : PyLib) (record : Record) (fs : List (String × Json))
    (eventType sourceService : Json) (key : Option String) : Prop where
  unwrapped : py.loads record.value >>= unwrap = .ok (.dict fs)
  eventType : fs.lookup "event_type" = some eventType
  sourceService : fs.lookup "source_service" = some sourceService
  key : keyDeserializer record.key = .ok key

/-- An event can be rebuilt from the record, and the Kafka client takes the key it is sent under. -/
def Replayable (py : PyLib) (record : Record) : Prop :=
  ∃ fs eventType sourceService key, Recovers py record fs eventType sourceService key ∧
    (key = none → ∀ id, fs.lookup "event_id" = some id → Sendable id)

/-- The envelope rebuilt from the fields of an event, with generated defaults. -/
def rebuilt (fs : List (String × Json)) (eventType sourceService : Json)
    (eventId timestamp : String) : EventEnvelope :=
  { eventType, sourceService
    payload := (fs.lookup "payload").getD (.dict [])
    eventId := (fs.lookup "event_id").getD (.str eventId)
    correlationId := (fs.lookup "correlation_id").getD .null
    timestamp := (fs.lookup "timestamp").getD (.str timestamp) }

/-- The key of a republished event: that of its dead letter, else its id. -/
def keyOr (key : Option String) (e : EventEnvelope) : Json := (key.map Json.str).getD e.eventId

theorem sendable_keyOr {fs : List (String × Json)} {key : Option String}
    (eventType sourceService : Json) (eventId timestamp : String) :
    Sendable (keyOr key (rebuilt fs eventType sourceService eventId timestamp)) ↔
      (key = none → ∀ id, fs.lookup "event_id" = some id → Sendable id) := by
  cases key with
  | some k => exact iff_of_true (sendable_str k) nofun
  | none =>
      unfold keyOr rebuilt
      cases fs.lookup "event_id" with
      | none => exact iff_of_true (sendable_str eventId) fun _ => nofun
      | some id => simp

/-- `p` is the event of `record`, republished into `topic`. -/
def Republishes (py : PyLib) (topic : String) (record : Record) (p : ProducerRecord) : Prop :=
  ∃ fs eventType sourceService key eventId timestamp,
    Recovers py record fs eventType sourceService key ∧
      let e := rebuilt fs eventType sourceService eventId timestamp
      p = ⟨topic, keyOr key e, e.toJson py⟩

theorem replayKey_eq (record : Record) (e : EventEnvelope) :
    replayKey record e = (fun key => keyOr key e) <$> keyDeserializer record.key := by
  unfold replayKey keyDeserializer
  cases record.key with
  | none => rfl
  | some k =>
      simp only
      split
      · rfl
      · cases decodeUtf8 k <;> rfl

variable {py : PyLib} {h : DLQHandler} {env : Env} {w : World}

/-- An event with a type and a source is rebuilt, with defaults for its id and its time. -/
theorem run_rebuild {fs : List (String × Json)} {eventType sourceService : Json}
    (htype : fs.lookup "event_type" = some eventType)
    (hsource : fs.lookup "source_service" = some sourceService) :
    (rebuild (.dict fs)).run (perform env) w =
      ⟨.ok (rebuilt fs eventType sourceService (env.uuid w.1.ops) (env.isoNow (w.1.ops + 1))),
        [⟨w, ⟨.uuid4, .ok (env.uuid w.1.ops)⟩⟩,
          ⟨w.tick, ⟨.isoNow, .ok (env.isoNow (w.1.ops + 1))⟩⟩],
        w.tick.tick⟩ := by
  simp [rebuild, getOrElse, Prog.run_bind, perform, Json.getItem, htype, hsource, rebuilt]

/-- Publishing asks the broker once. -/
theorem run_publish (p : FraudKafkaProducer) (hp : p.started = true) (topic : String) (key : Json)
    (e : EventEnvelope) :
    (p.publish py topic key e).run (perform env) w =
      (await (.sendAndWait topic key (e.toJson py))).run (perform env) w := by
  unfold FraudKafkaProducer.publish
  rw [hp]
  simp only [Bool.not_true, Bool.false_eq_true, if_false, Prog.run_tryExcept, Prog.run_await]
  cases (perform env (.sendAndWait topic key (e.toJson py)) w).1 with
  | ok _ => rfl
  | error x => cases hx : x.isKafkaError <;> simp [hx]

/-! ## One record -/

/-- The two steps that generate the defaults of a rebuilt envelope. -/
def defaultSteps (env : Env) (w : World) : List (Step World Op.Ret Exn) :=
  [⟨w, ⟨.uuid4, .ok (env.uuid w.1.ops)⟩⟩, ⟨w.tick, ⟨.isoNow, .ok (env.isoNow (w.1.ops + 1))⟩⟩]

variable (env w) in
/-- A record that can be recovered is sent once, and its replay ends as the send does. -/
theorem run_replayRecord_of_recovers (hp : h.producer.started = true) (topic : String)
    {record : Record} {fs : List (String × Json)} {eventType sourceService : Json}
    {key : Option String} (hr : Recovers py record fs eventType sourceService key) :
    let e := rebuilt fs eventType sourceService (env.uuid w.1.ops) (env.isoNow (w.1.ops + 1))
    let x := perform env (.sendAndWait topic (keyOr key e) (e.toJson py)) w.tick.tick
    (h.replayRecord py topic record).run (perform env) w =
      ⟨x.1, defaultSteps env w ++
        [⟨w.tick.tick, ⟨.sendAndWait topic (keyOr key e) (e.toJson py), x.1⟩⟩], x.2⟩ := by
  intro e x
  obtain ⟨wrapper, hload, hunwrap⟩ := bind_eq_ok.mp hr.unwrapped
  have hkey : replayKey record e = .ok (keyOr key e) := by
    rw [replayKey_eq, hr.key]
    rfl
  unfold replayRecord
  simp only [hload, hunwrap, Prog.lift_ok, pure_bind]
  rw [Prog.run_bind, run_rebuild hr.eventType hr.sourceService]
  simp only
  rw [hkey, Prog.lift_ok, pure_bind, run_publish _ hp, Prog.run_await]
  rfl

/-- The exceptions of the pure steps of a replay are all `Exception`s. -/
theorem isException_of_cls {x : Exn} (hx : x.cls ≠ .cancelledError) : x.isException = true := by
  simpa [Exn.isException] using hx

theorem loads_isException {raw : Option ByteArray} {x : Exn} (hx : py.loads raw = .error x) :
    x.isException = true := by
  apply isException_of_cls
  cases raw with
  | none =>
      obtain ⟨text, hnone⟩ := py.loads_none
      rw [hnone] at hx
      cases hx
      exact nofun
  | some b =>
      rcases py.loads_error b x hx with hcls | hcls
      · rw [hcls]
        exact nofun
      · rw [hcls]
        exact nofun

theorem fields_isException {v : Json} {x : Exn} (hx : v.fields = .error x) :
    x.isException = true := by
  cases v <;> cases hx <;> rfl

theorem unwrap_isException {v : Json} {x : Exn} (hx : unwrap v = .error x) :
    x.isException = true := by
  have hget : ∀ {v : Json} {key : String} {d : Json} {x : Exn}, v.get key d = .error x →
      x.isException = true := by
    intro v key d x hx
    rcases bind_eq_error.mp hx with hx | ⟨fs, -, hx⟩
    · exact fields_isException hx
    · cases hx
  rcases bind_eq_error.mp hx with hx | ⟨payload, -, hx⟩
  · exact hget hx
  · exact hget hx

theorem getItem_isException {v : Json} {key : String} {x : Exn} (hx : v.getItem key = .error x) :
    x.isException = true := by
  apply isException_of_cls
  rcases Json.getItem_error hx with hcls | hcls
  · rw [hcls]
    exact nofun
  · rw [hcls]
    exact nofun

theorem keyDeserializer_isException {key : Option ByteArray} {x : Exn}
    (hx : keyDeserializer key = .error x) : x.isException = true := by
  unfold keyDeserializer at hx
  cases key with
  | none => cases hx
  | some k =>
      simp only at hx
      split at hx
      · cases hx
      · unfold decodeUtf8 at hx
        cases hs : String.fromUTF8? k with
        | some s => simp [hs] at hx
        | none =>
            simp only [hs] at hx
            cases hx
            rfl

/-- A computation that fails with an `Exception`, and nothing it sends is accepted. -/
def FailsUnsent {α : Type} (p : Async α) (env : Env) (w : World) : Prop :=
  ∃ x, (p.run (perform env) w).result = .error x ∧ x.isException = true ∧
    published (p.run (perform env) w).events = []

theorem FailsUnsent.bind {α β : Type} {p : Async α} (g : α → Async β) (hp : FailsUnsent p env w) :
    FailsUnsent (p >>= g) env w := by
  obtain ⟨x, hx, hexc, hpub⟩ := hp
  refine ⟨x, ?_, hexc, ?_⟩
  · simp [Prog.run_bind, hx]
  · simpa [Prog.run_bind, hx, Execution.events] using hpub

theorem FailsUnsent.raise {α : Type} {x : Exn} (hx : x.isException = true) :
    FailsUnsent (.raise x : Async α) env w := ⟨x, rfl, hx, rfl⟩

/-- Rebuilding an envelope fails on anything but a dict with a type and a source. -/
theorem rebuild_fails {data : Json}
    (hdata : ¬ ∃ fs eventType sourceService, data = .dict fs ∧
      fs.lookup "event_type" = some eventType ∧ fs.lookup "source_service" = some sourceService) :
    FailsUnsent (rebuild data) env w := by
  unfold rebuild
  cases hfs : data.fields with
  | error x =>
      apply FailsUnsent.bind
      unfold getOrElse
      rw [hfs]
      exact .raise (fields_isException hfs)
  | ok fs =>
      obtain rfl : data = .dict fs := by
        cases data with
        | dict => cases hfs; rfl
        | _ => cases hfs
      -- the id is looked up before the type, the type before the source
      cases htype : (Json.dict fs).getItem "event_type" with
      | error x =>
          refine ⟨x, ?_, getItem_isException htype, ?_⟩
          all_goals simp [getOrElse, Prog.run_bind, perform, Execution.events]
      | ok eventType =>
          cases hsource : (Json.dict fs).getItem "source_service" with
          | error x =>
              refine ⟨x, ?_, getItem_isException hsource, ?_⟩
              all_goals simp [getOrElse, Prog.run_bind, perform, Execution.events]
          | ok sourceService =>
              exact absurd ⟨fs, eventType, sourceService, rfl, Json.lookup_of_getItem htype,
                Json.lookup_of_getItem hsource⟩ hdata

variable (h env w) in
/-- A record that cannot be recovered is not sent, and one whose key is no text is not accepted. -/
theorem replayRecord_fails (hp : h.producer.started = true) (topic : String) {record : Record}
    (hr : ¬ Replayable py record) :
    FailsUnsent (h.replayRecord py topic record) env w := by
  unfold replayRecord
  cases hload : py.loads record.value with
  | error x => exact .raise (loads_isException hload)
  | ok wrapper =>
      simp only [Prog.lift_ok, pure_bind]
      cases hunwrap : unwrap wrapper with
      | error x => exact .raise (unwrap_isException hunwrap)
      | ok data =>
          simp only [Prog.lift_ok, pure_bind]
          by_cases hdata : ∃ fs eventType sourceService, data = .dict fs ∧
              fs.lookup "event_type" = some eventType ∧
              fs.lookup "source_service" = some sourceService
          · obtain ⟨fs, eventType, sourceService, rfl, htype, hsource⟩ := hdata
            cases hkey : keyDeserializer record.key with
            | ok key =>
                have hrec : Recovers py record fs eventType sourceService key :=
                  ⟨bind_eq_ok.mpr ⟨wrapper, hload, hunwrap⟩, htype, hsource, hkey⟩
                -- the key is no text: the Kafka client raises
                have hkey' := mt (sendable_keyOr eventType sourceService (env.uuid w.1.ops)
                  (env.isoNow (w.1.ops + 1))).mp fun hsendable => hr ⟨_, _, _, _, hrec, hsendable⟩
                obtain ⟨x, hx, hcls⟩ := env.sent_of_not_sendable hkey' w.1.sends
                have hrun := run_replayRecord_of_recovers env w hp topic hrec
                unfold replayRecord at hrun
                simp only [hload, hunwrap, Prog.lift_ok, pure_bind] at hrun
                refine ⟨x, ?_, isException_of_cls (by rw [hcls]; exact nofun), ?_⟩
                · rw [hrun]
                  simp [perform, hx]
                · rw [hrun]
                  simp only [perform, World.tick_sends, hx, orFault_some]
                  rfl
            -- the key of the record is no UTF-8
            | error x =>
                have hx := keyDeserializer_isException hkey
                refine ⟨x, ?_, hx, ?_⟩
                all_goals simp [Prog.run_bind, run_rebuild htype hsource, replayKey_eq, hkey,
                    Execution.events]
          -- no envelope can be built from what is inside
          · exact FailsUnsent.bind _ (rebuild_fails hdata)

/-! ## The loop -/

/-- The body of the loop: one record, its exceptions caught, and the count. -/
def replayStep (py : PyLib) (h : DLQHandler) (topic : String) (record : Record) (replayed : ℕ) :
    Async ℕ :=
  (do
    replayRecord py h topic record
    return replayed + 1 : Async ℕ).tryExcept Exn.isException fun _ => pure replayed

/-- A record that goes through is sent and counted; one that is passed over is neither, and either
it cannot be recovered or the broker refused the send. -/
theorem run_replayStep (hp : h.producer.started = true) (topic : String) (record : Record)
    (replayed : ℕ) {k : ℕ}
    (hok : ((replayStep py h topic record replayed).run (perform env) w).result = .ok k) :
    let x := (replayStep py h topic record replayed).run (perform env) w
    (k = replayed + 1 ∧ Replayable py record ∧ env.send w.1.sends = none ∧
      x.final.1.sends = w.1.sends + 1 ∧
      ∃ p, published x.events = [p] ∧ Republishes py topic record p) ∨
    (k = replayed ∧ published x.events = [] ∧
      (Replayable py record → env.send w.1.sends ≠ none)) := by
  intro x
  by_cases hr : Replayable py record
  · obtain ⟨fs, eventType, sourceService, key, hrec, hkey⟩ := hr
    have hrun := run_replayRecord_of_recovers env w hp topic hrec
    have hsent := fun id ts => env.sent_of_sendable
      ((sendable_keyOr eventType sourceService id ts).mpr hkey) w.1.sends
    cases hsend : env.send w.1.sends with
    | none =>
        -- the broker accepts the send
        left
        have hx : x = (replayStep py h topic record replayed).run (perform env) w := rfl
        simp only [replayStep, Prog.run_tryExcept, Prog.run_bind, hrun] at hx hok
        simp only [perform, World.tick_sends, hsent, hsend, orFault_none, Prog.run_pure,
          Except.ok.injEq] at hx hok
        refine ⟨hok.symm, ⟨_, _, _, _, hrec, hkey⟩, rfl, by simp [hx], _, ?_,
          ⟨fs, eventType, sourceService, key, env.uuid w.1.ops, env.isoNow (w.1.ops + 1), hrec, rfl⟩⟩
        rw [hx]
        rfl
    | some exc =>
        -- the broker refuses it: an `Exception` is logged, and the count stays as it is
        right
        have hx : x = (replayStep py h topic record replayed).run (perform env) w := rfl
        simp only [replayStep, Prog.run_tryExcept, Prog.run_bind, hrun] at hx hok
        simp only [perform, World.tick_sends, hsent, hsend, orFault_some] at hx hok
        cases hexc : exc.isException with
        | true =>
            simp only [hexc, if_true, Prog.run_pure, Except.ok.injEq] at hx hok
            refine ⟨hok.symm, ?_, ?_⟩
            · rw [hx]
              rfl
            · intro _ hnone
              cases hnone
        | false => simp [hexc] at hok
  · right
    obtain ⟨exc, hres, hexc, hpub⟩ := replayRecord_fails h env w hp topic hr
    have hx : x = (replayStep py h topic record replayed).run (perform env) w := rfl
    simp only [replayStep, Prog.run_tryExcept, Prog.run_bind, hres, hexc, if_true,
      Prog.run_pure, Except.ok.injEq, List.append_nil] at hx hok
    refine ⟨hok.symm, ?_, fun hr' => absurd hr' hr⟩
    rw [hx]
    exact hpub

/-- What a loop over `records` has sent when it ends with the count `k`: one record of the topic for
each member of a sublist, which is the whole list exactly when nothing stood in the way. -/
structure Replayed (py : PyLib) (topic : String) (env : Env) (sends : ℕ) (records : List Record)
    (ps : List ProducerRecord) : Prop where
  sent : ∃ sent, sent.Sublist records ∧ List.Forall₂ (Republishes py topic) sent ps
  complete : ps.length = records.length ↔
    (∀ record ∈ records, Replayable py record) ∧ ∀ i < records.length, env.send (sends + i) = none

theorem Replayed.length_le {topic : String} {sends : ℕ} {records : List Record}
    {ps : List ProducerRecord} (hr : Replayed py topic env sends records ps) :
    ps.length ≤ records.length := by
  obtain ⟨sent, hsub, hsent⟩ := hr.sent
  have hlen := hsent.length_eq
  have hle := hsub.length_le
  omega

/-- Everything was sent exactly when the records that went out are those of the batch, in order. -/
theorem Replayed.forall₂_iff {topic : String} {sends : ℕ} {records : List Record}
    {ps : List ProducerRecord} (hr : Replayed py topic env sends records ps) :
    List.Forall₂ (Republishes py topic) records ps ↔ ps.length = records.length := by
  refine ⟨fun hall => hall.length_eq.symm, fun hlen => ?_⟩
  obtain ⟨sent, hsub, hsent⟩ := hr.sent
  have hsame : sent = records := by
    apply hsub.eq_of_length
    rw [hsent.length_eq, hlen]
  exact hsame ▸ hsent

/-- A record that goes out in front of others. -/
theorem Replayed.sent_cons {topic : String} {sends : ℕ} {record : Record} {records : List Record}
    {p : ProducerRecord} {ps : List ProducerRecord}
    (hrest : Replayed py topic env (sends + 1) records ps) (hr : Replayable py record)
    (hsend : env.send sends = none) (hp : Republishes py topic record p) :
    Replayed py topic env sends (record :: records) (p :: ps) := by
  obtain ⟨sent, hsub, hsent⟩ := hrest.sent
  refine ⟨⟨record :: sent, hsub.cons_cons record, .cons hp hsent⟩, ?_⟩
  simp only [List.length_cons, Nat.add_right_cancel_iff, List.forall_mem_cons]
  rw [hrest.complete]
  constructor
  · rintro ⟨hall, hacc⟩
    refine ⟨⟨hr, hall⟩, ?_⟩
    intro i hi
    by_cases hi0 : i = 0
    · subst hi0
      exact hsend
    · have hnext := hacc (i - 1) (by omega)
      have hshift : sends + 1 + (i - 1) = sends + i := by omega
      rwa [hshift] at hnext
  · rintro ⟨⟨-, hall⟩, hacc⟩
    refine ⟨hall, ?_⟩
    intro i hi
    have hnext := hacc (i + 1) (by omega)
    rwa [← Nat.add_assoc, Nat.add_right_comm] at hnext

/-- A record that is passed over in front of others, which cannot make up for it. -/
theorem Replayed.passed_cons {topic : String} {sends sends' : ℕ} {record : Record}
    {records : List Record} {ps : List ProducerRecord}
    (hrest : Replayed py topic env sends' records ps)
    (hfail : Replayable py record → env.send sends ≠ none) :
    Replayed py topic env sends (record :: records) ps := by
  obtain ⟨sent, hsub, hsent⟩ := hrest.sent
  have hle := hrest.length_le
  refine ⟨⟨sent, hsub.cons record, hsent⟩, ?_⟩
  simp only [List.length_cons, List.forall_mem_cons]
  refine iff_of_false (by omega) ?_
  rintro ⟨⟨hr, -⟩, hacc⟩
  exact hfail hr (hacc 0 (by omega))

/-- The loop counts what it sends. -/
theorem run_replayRecords (hp : h.producer.started = true) (topic : String)
    (records : List Record) (replayed : ℕ) (w : World) {k : ℕ}
    (hok : ((h.replayRecords py topic records replayed).run (perform env) w).result = .ok k) :
    let x := (h.replayRecords py topic records replayed).run (perform env) w
    k = replayed + (published x.events).length ∧
      Replayed py topic env w.1.sends records (published x.events) := by
  induction records generalizing replayed w with
  | nil =>
      cases hok
      exact ⟨rfl, ⟨[], List.Sublist.refl _, .nil⟩, by simp [replayRecords, Execution.events]⟩
  | cons record records ih =>
      have hunfold : h.replayRecords py topic (record :: records) replayed
          = replayStep py h topic record replayed >>= h.replayRecords py topic records := rfl
      rw [hunfold, Prog.run_bind] at hok
      rw [hunfold, Prog.run_bind]
      cases hstep : ((replayStep py h topic record replayed).run (perform env) w).result with
      | error exc => simp [hstep] at hok
      | ok k' =>
          simp only [hstep, Execution.events, List.map_append, published_append] at hok ⊢
          obtain ⟨hk, hrest⟩ := ih k' _ hok
          rcases run_replayStep hp topic record replayed hstep with
            ⟨rfl, hr, hsend, hsends, p, hpub, hp'⟩ | ⟨rfl, hpub, hfail⟩
          · simp only [Execution.events] at hpub hk hrest
            rw [hpub]
            rw [hsends] at hrest
            refine ⟨?_, hrest.sent_cons hr hsend hp'⟩
            simp only [List.cons_append, List.nil_append, List.length_cons]
            omega
          · simp only [Execution.events] at hpub hk hrest
            rw [hpub]
            exact ⟨by simpa using hk, hrest.passed_cons hfail⟩

/-! ## A whole replay -/

/-- The batch of records a replay works through. -/
def batchOf (env : Env) : List Record := env.batch.flatten

/-- A replay that returns has run its loop over the whole batch, and published what the loop did. -/
theorem run_replay_ok (topic : String) (batchSize : ℕ) (w : World) {k : ℕ}
    (hok : ((h.replay py topic batchSize).run (perform env) w).result = .ok k) :
    let x := (h.replayRecords py topic (batchOf env) 0).run (perform env) w.tick.tick
    x.result = .ok k ∧
      published ((h.replay py topic batchSize).run (perform env) w).events = published x.events := by
  intro x
  have hbody := Prog.result_of_tryFinally hok
  obtain ⟨_, hstart, hrest⟩ := Prog.result_bind_ok.mp hbody
  have hfinal : ((await .start).run (perform env) w).final = w.tick := by
    rw [Prog.run_await]
    exact orFault_snd _ _ _
  rw [hfinal] at hrest
  obtain ⟨batch, hget, hrest'⟩ := Prog.result_bind_ok.mp hrest
  have hfinal' : ((await (.getmany (h.dlqTopic topic) batchSize)).run (perform env) w.tick).final
      = w.tick.tick := by
    rw [Prog.run_await]
    exact orFault_snd _ _ _
  have hbatch : batch = env.batch := by
    rw [Prog.run_await] at hget
    exact (Except.ok.inj (orFault_fst hget)).symm
  rw [hfinal', hbatch] at hrest'
  obtain ⟨k', hloop, hrest''⟩ := Prog.result_bind_ok.mp hrest'
  obtain ⟨_, hcommit, hret⟩ := Prog.result_bind_ok.mp hrest''
  obtain rfl : k' = k := by simpa using hret
  refine ⟨hloop, ?_⟩
  unfold replay
  rw [Prog.events_tryFinally, Prog.events_bind_of_ok hstart, hfinal,
    Prog.events_bind_of_ok hget, hfinal', hbatch, Prog.events_bind_of_ok hloop,
    Prog.events_bind_of_ok hcommit]
  simp only [Prog.events_await, published_append]
  rw [show published [⟨.start, _⟩] = [] from rfl, show published [⟨.getmany _ _, _⟩] = [] from rfl,
    show published [⟨.commit, _⟩] = [] from rfl, show published [⟨.stop, _⟩] = [] from rfl]
  simp [Execution.events, x, batchOf]

/-- Once the batch has been fetched, replay commits it whatever became of its records. -/
theorem commit_mem_of_replay_ok (topic : String) (batchSize : ℕ) (w : World) {k : ℕ}
    (hok : ((h.replay py topic batchSize).run (perform env) w).result = .ok k) :
    ⟨.commit, .ok ()⟩ ∈ ((h.replay py topic batchSize).run (perform env) w).events := by
  have hbody := Prog.result_of_tryFinally hok
  obtain ⟨_, hstart, hrest⟩ := Prog.result_bind_ok.mp hbody
  obtain ⟨batch, hget, hrest'⟩ := Prog.result_bind_ok.mp hrest
  obtain ⟨k', hloop, hrest''⟩ := Prog.result_bind_ok.mp hrest'
  obtain ⟨u, hcommit, -⟩ := Prog.result_bind_ok.mp hrest''
  have hmem : ∀ w' : World, ((await .commit).run (perform env) w').result = .ok u →
      ⟨.commit, .ok ()⟩ ∈ ((await .commit).run (perform env) w').events := by
    intro w' hw'
    rw [Prog.run_await] at hw' ⊢
    simp only at hw'
    simp [Execution.events, hw']
  unfold replay
  rw [Prog.events_tryFinally, Prog.events_bind_of_ok hstart, Prog.events_bind_of_ok hget,
    Prog.events_bind_of_ok hloop, Prog.events_bind_of_ok hcommit]
  simp only [List.mem_append]
  exact Or.inl (Or.inr (Or.inr (Or.inr (Or.inl (hmem _ hcommit)))))

/-! ## Replays that return -/

variable (py w) in
/-- The step of one record returns if the broker's refusals are `Exception`s. -/
theorem replayStep_returns (hp : h.producer.started = true)
    (hexc : ∀ n x, env.send n = some x → x.isException = true) (topic : String) (record : Record)
    (replayed : ℕ) :
    ∃ k, ((replayStep py h topic record replayed).run (perform env) w).result = .ok k := by
  by_cases hr : Replayable py record
  · obtain ⟨fs, eventType, sourceService, key, hrec, hkey⟩ := hr
    have hrun := run_replayRecord_of_recovers env w hp topic hrec
    have hsent := fun id ts => env.sent_of_sendable
      ((sendable_keyOr eventType sourceService id ts).mpr hkey) w.1.sends
    cases hsend : env.send w.1.sends with
    | none =>
        refine ⟨replayed + 1, ?_⟩
        simp only [replayStep, Prog.run_tryExcept, Prog.run_bind, hrun]
        simp [perform, hsent, hsend]
    | some exc =>
        refine ⟨replayed, ?_⟩
        simp only [replayStep, Prog.run_tryExcept, Prog.run_bind, hrun]
        simp [perform, hsent, hsend, hexc _ _ hsend]
  · obtain ⟨exc, hres, hexc', -⟩ := replayRecord_fails h env w hp topic hr
    refine ⟨replayed, ?_⟩
    simp only [replayStep, Prog.run_tryExcept, Prog.run_bind, hres, hexc', if_true,
      Prog.run_pure]

variable (py) in
theorem replayRecords_returns (hp : h.producer.started = true)
    (hexc : ∀ n x, env.send n = some x → x.isException = true) (topic : String)
    (records : List Record) (replayed : ℕ) (w : World) :
    ∃ k, ((h.replayRecords py topic records replayed).run (perform env) w).result = .ok k := by
  induction records generalizing replayed w with
  | nil => exact ⟨replayed, rfl⟩
  | cons record records ih =>
      obtain ⟨k, hk⟩ := replayStep_returns py w hp hexc topic record replayed
      have hunfold : h.replayRecords py topic (record :: records) replayed
          = replayStep py h topic record replayed >>= h.replayRecords py topic records := rfl
      obtain ⟨k', hk'⟩ := ih k ((replayStep py h topic record replayed).run (perform env) w).final
      refine ⟨k', ?_⟩
      rw [hunfold]
      exact Prog.result_bind_ok.mpr ⟨k, hk, hk'⟩

variable (py) in
/-- In a reliable environment replay returns. -/
theorem replay_returns (hp : h.producer.started = true) (henv : env.Reliable)
    (hexc : ∀ n x, env.send n = some x → x.isException = true) (topic : String) (batchSize : ℕ)
    (w : World) :
    ∃ k, ((h.replay py topic batchSize).run (perform env) w).result = .ok k := by
  obtain ⟨k, hk⟩ := replayRecords_returns py hp hexc topic env.batch.flatten 0 w.tick.tick
  refine ⟨k, ?_⟩
  unfold replay
  simp only [Prog.run_tryFinally, Prog.run_bind, Prog.run_await, perform, henv.fault, orFault_none,
    hk, Prog.run_pure]

/-! ## Dead letters as records -/

/-- The value of a dead letter for `e`. -/
def deadLetter (py : PyLib) (topic : String) (e : EventEnvelope) (errorMessage : String)
    (retryCount : ℕ) (failedAt eventId timestamp : String) : ByteArray :=
  (dlqEnvelope e (dlqPayload topic e errorMessage retryCount failedAt) eventId timestamp).toJson py

theorem dlqEnvelope_wf {e : EventEnvelope} (he : e.WF) (topic errorMessage : String)
    (retryCount : ℕ) (failedAt eventId timestamp : String) :
    (dlqEnvelope e (dlqPayload topic e errorMessage retryCount failedAt) eventId timestamp).WF := by
  refine ⟨.str _, .str _, ?_, .str _, ?_, .str _⟩
  · refine .dict (by simp) ?_
    intro kv hkv
    simp only [List.mem_cons, List.not_mem_nil, or_false] at hkv
    rcases hkv with rfl | rfl | rfl | rfl | rfl
    exacts [.str _, he.toDict, .str _, .int _, .str _]
  · unfold dlqEnvelope Json.or
    split
    · exact he.correlationId
    · exact he.eventId

/-- A well-formed event can be recovered from its dead letter. -/
theorem recovers_deadLetter {e : EventEnvelope} (he : e.WF) {topic errorMessage : String}
    {retryCount : ℕ} {failedAt eventId timestamp : String} {record : Record} {key : Option String}
    (hvalue : record.value = some
      (deadLetter py topic e errorMessage retryCount failedAt eventId timestamp))
    (hkey : keyDeserializer record.key = .ok key) :
    Recovers py record
      [("event_type", e.eventType), ("source_service", e.sourceService), ("payload", e.payload),
        ("event_id", e.eventId), ("correlation_id", e.wireCorrelationId), ("timestamp", e.timestamp)]
      e.eventType e.sourceService key := by
  refine ⟨?_, rfl, rfl, hkey⟩
  have hwf := (dlqEnvelope_wf he topic errorMessage retryCount failedAt eventId timestamp).toDict
  rw [hvalue]
  refine bind_eq_ok.mpr ⟨_, py.loads_dumps _ hwf, ?_⟩
  rfl

/-- The event rebuilt from a dead letter is the one that failed, its correlation id normalised. -/
theorem rebuilt_fields (e : EventEnvelope) (eventId timestamp : String) :
    rebuilt [("event_type", e.eventType), ("source_service", e.sourceService),
      ("payload", e.payload), ("event_id", e.eventId), ("correlation_id", e.wireCorrelationId),
      ("timestamp", e.timestamp)] e.eventType e.sourceService eventId timestamp = e.normalise := rfl

/-- The fields of an event determine what replay reads off a record. -/
theorem Recovers.unique {record : Record} {fs fs' : List (String × Json)} {t t' s s' : Json}
    {key key' : Option String} (hr : Recovers py record fs t s key)
    (hr' : Recovers py record fs' t' s' key') : fs = fs' ∧ t = t' ∧ s = s' ∧ key = key' := by
  have hfs : (Except.ok (.dict fs) : Except Exn Json) = .ok (.dict fs') :=
    hr.unwrapped.symm.trans hr'.unwrapped
  cases hfs
  have ht : some t = some t' := hr.eventType.symm.trans hr'.eventType
  have hs : some s = some s' := hr.sourceService.symm.trans hr'.sourceService
  have hkey : (Except.ok key : Except Exn (Option String)) = .ok key' := hr.key.symm.trans hr'.key
  exact ⟨rfl, Option.some.inj ht, Option.some.inj hs, Except.ok.inj hkey⟩

/-- What is republished for a dead letter is the failed event, under the key of its dead letter. -/
theorem Republishes.eq_of_deadLetter {e : EventEnvelope} (he : e.WF)
    {topic topic' errorMessage : String} {retryCount : ℕ} {failedAt eventId timestamp : String}
    {record : Record} {key : Option String}
    (hvalue : record.value = some
      (deadLetter py topic e errorMessage retryCount failedAt eventId timestamp))
    (hkey : keyDeserializer record.key = .ok key) {p : ProducerRecord}
    (hp : Republishes py topic' record p) : p = ⟨topic', keyOr key e, e.toJson py⟩ := by
  obtain ⟨fs, t, s, key', id, ts, hr, rfl⟩ := hp
  obtain ⟨rfl, rfl, rfl, rfl⟩ := hr.unique (recovers_deadLetter he hvalue hkey)
  rw [rebuilt_fields]
  have hbytes : e.normalise.toJson py = e.toJson py := by
    unfold EventEnvelope.toJson
    rw [EventEnvelope.toDict_normalise]
  rw [hbytes]
  rfl

/-- In a healthy environment a replay of one record republishes it, if it can be recovered. -/
theorem published_replay_one (hp : h.producer.started = true) (henv : env.Healthy) (topic : String)
    (batchSize : ℕ) (w : World) {record : Record} (hbatch : batchOf env = [record])
    (hr : Replayable py record) :
    ∃ p, published ((h.replay py topic batchSize).run (perform env) w).events = [p] ∧
      Republishes py topic record p := by
  have hexc : ∀ n x, env.send n = some x → x.isException = true := by
    intro n x hx
    rw [henv.send] at hx
    cases hx
  obtain ⟨k, hk⟩ := replay_returns py hp henv.toReliable hexc topic batchSize w
  obtain ⟨hloop, hpub⟩ := run_replay_ok topic batchSize w hk
  obtain ⟨-, hreplayed⟩ := run_replayRecords hp topic (batchOf env) 0 _ hloop
  rw [hbatch] at hreplayed hpub
  have hall := hreplayed.forall₂_iff.mpr (hreplayed.complete.mpr ⟨by simpa using hr, fun i _ =>
    henv.send _⟩)
  rw [← hpub] at hall
  cases hps : published ((h.replay py topic batchSize).run (perform env) w).events with
  | nil =>
      rw [hps] at hall
      cases hall
  | cons p ps =>
      rw [hps] at hall
      obtain ⟨hp', hnil⟩ := List.forall₂_cons.mp hall
      cases hnil
      exact ⟨p, rfl, hp'⟩

/-- In a healthy environment a replay of one dead letter republishes the failed event. -/
theorem published_replay_deadLetter (hp : h.producer.started = true) (henv : env.Healthy)
    {e : EventEnvelope} (he : e.WF) (topic' : String) (batchSize : ℕ) (w : World)
    {topic errorMessage : String} {retryCount : ℕ} {failedAt eventId timestamp : String}
    {record : Record} (hbatch : batchOf env = [record])
    (hvalue : record.value = some
      (deadLetter py topic e errorMessage retryCount failedAt eventId timestamp))
    {key : Option String} (hkey : keyDeserializer record.key = .ok key)
    (hsendable : Sendable (keyOr key e)) :
    published ((h.replay py topic' batchSize).run (perform env) w).events
      = [⟨topic', keyOr key e, e.toJson py⟩] := by
  have hr : Replayable py record := by
    refine ⟨_, _, _, _, recovers_deadLetter he hvalue hkey, ?_⟩
    rintro rfl id ⟨⟩
    exact hsendable
  obtain ⟨p, hps, hrep⟩ := published_replay_one hp henv topic' batchSize w hbatch hr
  rw [hps, hrep.eq_of_deadLetter he hvalue hkey]

end DLQHandler

/-! ## A sample batch -/

/-- The dead letter of `sampleEvent`, as the broker stores it. -/
def sampleDeadLetter : Record :=
  { topic := "fraud.events.dlq"
    key := some "acct-1".toUTF8
    value := some (DLQHandler.deadLetter CompactJson.compactJson "fraud.events" sampleEvent "boom" 1
      "now-2" "id-3" "now-4")
    offset := 0 }

theorem sampleDeadLetter_value : sampleDeadLetter.value = some (DLQHandler.deadLetter
    CompactJson.compactJson "fraud.events" sampleEvent "boom" 1 "now-2" "id-3" "now-4") := rfl

theorem sampleDeadLetter_key : keyDeserializer sampleDeadLetter.key = .ok (some "acct-1") :=
  keyDeserializer_toUTF8 (by decide)

namespace DLQHandler

/-! ## What a replay drops -/

/-- Replay republishes every record of the batch it commits, and returns their number, exactly when
every record can be recovered and the broker accepts every send. -/
theorem replay_complete_iff (py : PyLib) (h : DLQHandler) (hp : h.producer.started = true)
    (topic : String) (batchSize : ℕ) (env : Env) (w : World) (k : ℕ)
    (hok : ((h.replay py topic batchSize).run (perform env) w).result = .ok k) :
    let x := (h.replay py topic batchSize).run (perform env) w
    ⟨.commit, .ok ()⟩ ∈ x.events ∧
    ((List.Forall₂ (Republishes py topic) (batchOf env) (published x.events) ∧
        k = (published x.events).length) ↔
      (∀ record ∈ batchOf env, Replayable py record) ∧
        ∀ i < (batchOf env).length, env.send (w.1.sends + i) = none) := by
  intro x
  refine ⟨commit_mem_of_replay_ok topic batchSize w hok, ?_⟩
  obtain ⟨hloop, hpub⟩ := run_replay_ok topic batchSize w hok
  obtain ⟨hk, hreplayed⟩ := run_replayRecords hp topic (batchOf env) 0 _ hloop
  rw [← hpub] at hk hreplayed
  have hcount : k = (published x.events).length := by
    rw [hk, Nat.zero_add]
  rw [hreplayed.forall₂_iff, hreplayed.complete]
  exact and_iff_left hcount

/-- An environment whose batch is the dead letter of `sampleEvent`. -/
def sampleBatchEnv : Env := { Env.calm with batch := [[sampleDeadLetter]] }

theorem replay_complete_iff_sample : ∃ k,
    let x := (sampleDlq.replay CompactJson.compactJson "fraud.events" 100).run
      (perform sampleBatchEnv) World.fresh
    ⟨.commit, .ok ()⟩ ∈ x.events ∧
    ((List.Forall₂ (Republishes CompactJson.compactJson "fraud.events") (batchOf sampleBatchEnv)
        (published x.events) ∧ k = (published x.events).length) ↔
      (∀ record ∈ batchOf sampleBatchEnv, Replayable CompactJson.compactJson record) ∧
        ∀ i < (batchOf sampleBatchEnv).length,
          sampleBatchEnv.send (World.fresh.1.sends + i) = none) := by
  have henv : sampleBatchEnv.Reliable := ⟨fun _ _ => rfl⟩
  obtain ⟨k, hk⟩ := replay_returns CompactJson.compactJson (h := sampleDlq) rfl henv nofun
    "fraud.events" 100 World.fresh
  exact ⟨k, replay_complete_iff _ _ rfl _ _ _ _ k hk⟩

/-- The same batch, replayed while the broker is down. -/
def downBatchEnv : Env := { failingEnv with batch := [[sampleDeadLetter]] }

/-- A dead letter whose republication the broker refuses is committed all the same. -/
theorem replay_commits_refused :
    ¬ ∀ k,
      let x := (sampleDlq.replay CompactJson.compactJson "fraud.events" 100).run
        (perform downBatchEnv) World.fresh
      x.result = .ok k → ⟨.commit, .ok ()⟩ ∈ x.events →
        List.Forall₂ (Republishes CompactJson.compactJson "fraud.events") (batchOf downBatchEnv)
          (published x.events) ∧ k = (published x.events).length := by
  intro hclaim
  have hexc : ∀ n x, downBatchEnv.send n = some x → x.isException = true := by
    intro n x hx
    cases hx
    rfl
  have henv : downBatchEnv.Reliable := ⟨fun _ _ => rfl⟩
  obtain ⟨k, hk⟩ := replay_returns CompactJson.compactJson (h := sampleDlq) rfl henv hexc
    "fraud.events" 100 World.fresh
  obtain ⟨hloop, hpub⟩ := run_replay_ok "fraud.events" 100 World.fresh hk
  obtain ⟨-, hreplayed⟩ := run_replayRecords rfl "fraud.events" (batchOf downBatchEnv) 0 _ hloop
  have hall := (hclaim k hk (commit_mem_of_replay_ok _ _ _ hk)).1
  rw [hpub] at hall
  have haccepted := (hreplayed.complete.mp (hreplayed.forall₂_iff.mp hall)).2 0 (by decide)
  cases haccepted

end DLQHandler

end FraudDetection.Kafka
