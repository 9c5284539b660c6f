import Mathlib.Data.List.TakeWhile
import FraudDetection.Kafka.Traces

/-!
# What an offset commit covers

`commit()` without arguments covers every message delivered so far. This module determines, for
every commit of every run of `consume`, which of those messages have been disposed of: handled,
skipped because their id was already recorded, or accepted by the dead-letter topic.

The ghost state is the list of events so far. Between two messages it is `Settled`: a delivered
message is disposed of exactly when its dead-letter publish did not fail with a `KafkaError`. The
contract `covering` asks for this at every commit, and the loop maintains it turn by turn.
-/

namespace FraudDetection.Kafka

open Async Python Store

/-! ## Turns and dispositions -/

/-- The delivery of a message by the Kafka consumer. -/
def isDelivery (ev : Event) : Bool :=
  match ev.op with
  | .deliver _ => true
  | _ => false

/-- The events of one turn of the consume loop: up to the next delivery. -/
def turn (es : List Event) : List Event := es.takeWhile fun ev => !isDelivery ev

/-- A dead-letter publish that failed with a `KafkaError`. -/
def isDlqFailure (ev : Event) : Bool :=
  match ev with
  | ⟨.sendAndWait _ _ _, .error x⟩ => x.isKafkaError
  | _ => false

/-- The event id was recorded as processed: in Redis before the run, or by an earlier `SET`. -/
def Recorded (r₀ : Keyspace String String ℚ) (es : List Event) (key : String) : Prop :=
  (r₀ key).isSome = true ∨ ∃ v ex, ⟨.redisSet key v ex, .ok ()⟩ ∈ es

/-- `d` is a dead letter for the message: it carries the message's own envelope, or the text of a
message that has none. -/
def DeadLetterOf (py : PyLib) (m : Message) (d : EventEnvelope) : Prop :=
  ∃ orig msg n failedAt, d.payload = DLQHandler.dlqPayload m.topic orig msg n failedAt ∧
    (EventEnvelope.fromJson py m.value = .ok orig ∨
      ∃ x raw id ts, EventEnvelope.fromJson py m.value = .error x ∧
        FraudKafkaConsumer.decodeValue py m.value = .ok raw ∧
        orig = FraudKafkaConsumer.badEnvelope raw id ts)

/-- The message has been disposed of in its turn `es`, given the events `a` before its delivery: its
handler call returned, or its id had been recorded by an earlier delivery, or a dead letter for it
was accepted by the broker. -/
def Disposed (py : PyLib) (h : DLQHandler) (r₀ : Keyspace String String ℚ) (a : List Event)
    (m : Message) (es : List Event) : Prop :=
  (∃ e, EventEnvelope.fromJson py m.value = .ok e ∧ ⟨.handlerFn e, .ok ()⟩ ∈ es) ∨
  (∃ e, EventEnvelope.fromJson py m.value = .ok e ∧
    ⟨.redisExists (FraudKafkaConsumer.dedupKey py e.eventId), .ok true⟩ ∈ es ∧
    Recorded r₀ a (FraudKafkaConsumer.dedupKey py e.eventId)) ∨
  ∃ key d, ⟨.sendAndWait (h.dlqTopic m.topic) key (d.toJson py), .ok ()⟩ ∈ es ∧
    DeadLetterOf py m d

/-- Every message delivered so far is disposed of exactly when its dead-letter publish, if there was
one, did not fail with a `KafkaError`. -/
def Settled (py : PyLib) (h : DLQHandler) (r₀ : Keyspace String String ℚ) (es : List Event) :
    Prop :=
  ∀ a m b, es = a ++ ⟨.deliver m, .ok ()⟩ :: b →
    (Disposed py h r₀ a m (turn b) ↔ ∀ ev ∈ turn b, isDlqFailure ev = false)

/-! ## Classifying events -/

/-- The events that can dispose of a message. -/
def disposes (ev : Event) : Bool :=
  match ev with
  | ⟨.handlerFn _, .ok _⟩ => true
  | ⟨.redisExists _, .ok b⟩ => b
  | ⟨.sendAndWait _ _ _, .ok _⟩ => true
  | _ => false

/-- An event that neither disposes of a message nor loses it. -/
def Quiet (ev : Event) : Prop :=
  isDelivery ev = false ∧ disposes ev = false ∧ isDlqFailure ev = false

variable {py : PyLib} {h : DLQHandler} {r₀ : Keyspace String String ℚ}

theorem Disposed.exists_disposes {a es : List Event} {m : Message}
    (hd : Disposed py h r₀ a m es) : ∃ ev ∈ es, disposes ev = true := by
  rcases hd with ⟨e, -, hev⟩ | ⟨e, -, hev, -⟩ | ⟨key, d, hev, -⟩
  · exact ⟨_, hev, rfl⟩
  · exact ⟨_, hev, rfl⟩
  · exact ⟨_, hev, rfl⟩

theorem Failures.quiet {e : EventEnvelope} {n : ℕ} {es : List Event} (hf : Failures e n es) :
    ∀ ev ∈ es, Quiet ev := by
  induction hf with
  | nil => simp
  | fail hx _ ih =>
      intro ev hev
      rcases List.mem_cons.mp hev with rfl | hev
      · exact ⟨rfl, rfl, rfl⟩
      · exact ih ev hev
  | sleep _ ih =>
      intro ev hev
      rcases List.mem_cons.mp hev with rfl | hev
      · exact ⟨rfl, rfl, rfl⟩
      · exact ih ev hev

theorem Quiet.commit (rep : Except Exn Unit) : Quiet ⟨.commit, rep⟩ := ⟨rfl, rfl, rfl⟩

theorem Quiet.redisSet (key v : String) (ex : ℤ) (rep : Except Exn Unit) :
    Quiet ⟨.redisSet key v ex, rep⟩ := ⟨rfl, rfl, rfl⟩

/-! ## One turn -/

/-- One event of the turn decides what becomes of the message: it disposes of it, or it is a failed
dead-letter publish. -/
def Decided (py : PyLib) (h : DLQHandler) (r₀ : Keyspace String String ℚ) (a : List Event)
    (m : Message) (es : List Event) : Prop :=
  ∃ xs ev ys, es = xs ++ ev :: ys ∧ (∀ ev ∈ xs, Quiet ev) ∧ (∀ ev ∈ ys, Quiet ev) ∧
    ((disposes ev = true ∧ Disposed py h r₀ a m [ev]) ∨ isDlqFailure ev = true)

theorem Disposed.mono {a es fs : List Event} {m : Message} (hd : Disposed py h r₀ a m es)
    (hsub : ∀ ev ∈ es, ev ∈ fs) : Disposed py h r₀ a m fs := by
  rcases hd with ⟨e, he, hev⟩ | ⟨e, he, hev, hr⟩ | ⟨key, d, hev, hd⟩
  · exact Or.inl ⟨e, he, hsub _ hev⟩
  · exact Or.inr (Or.inl ⟨e, he, hsub _ hev, hr⟩)
  · exact Or.inr (Or.inr ⟨key, d, hsub _ hev, hd⟩)

theorem Decided.append {a es fs : List Event} {m : Message} (hd : Decided py h r₀ a m es)
    (hfs : ∀ ev ∈ fs, Quiet ev) : Decided py h r₀ a m (es ++ fs) := by
  obtain ⟨xs, ev, ys, rfl, hxs, hys, hev⟩ := hd
  exact ⟨xs, ev, ys ++ fs, by simp, hxs, List.forall_mem_append.mpr ⟨hys, hfs⟩, hev⟩

theorem Decided.prepend {a es fs : List Event} {m : Message} (hd : Decided py h r₀ a m es)
    (hfs : ∀ ev ∈ fs, Quiet ev) : Decided py h r₀ a m (fs ++ es) := by
  obtain ⟨xs, ev, ys, rfl, hxs, hys, hev⟩ := hd
  exact ⟨fs ++ xs, ev, ys, by simp, List.forall_mem_append.mpr ⟨hfs, hxs⟩, hys, hev⟩

/-- A decided turn delivers nothing else. -/
theorem Decided.not_isDelivery {a es : List Event} {m : Message} (hd : Decided py h r₀ a m es) :
    ∀ ev ∈ es, isDelivery ev = false := by
  obtain ⟨xs, ev, ys, rfl, hxs, hys, hev⟩ := hd
  have hself : isDelivery ev = false := by
    obtain ⟨op, r⟩ := ev
    cases op <;> simp_all [disposes, isDelivery, isDlqFailure]
  refine List.forall_mem_append.mpr ⟨?_, List.forall_mem_cons.mpr ⟨hself, ?_⟩⟩
  · exact fun ev' hev' => (hxs ev' hev').1
  · exact fun ev' hev' => (hys ev' hev').1

/-- In a decided turn the message is disposed of exactly when no dead-letter publish failed. -/
theorem Decided.disposed_iff {a es : List Event} {m : Message} (hd : Decided py h r₀ a m es) :
    Disposed py h r₀ a m es ↔ ∀ ev ∈ es, isDlqFailure ev = false := by
  obtain ⟨xs, ev, ys, rfl, hxs, hys, ⟨hev, hd⟩ | hev⟩ := hd
  · -- the deciding event disposes of the message
    have hself : isDlqFailure ev = false := by
      obtain ⟨op, r⟩ := ev
      cases op <;> cases r <;> simp_all [disposes, isDlqFailure]
    refine iff_of_true (hd.mono (by simp)) ?_
    refine List.forall_mem_append.mpr ⟨?_, List.forall_mem_cons.mpr ⟨hself, ?_⟩⟩
    · exact fun ev' hev' => (hxs ev' hev').2.2
    · exact fun ev' hev' => (hys ev' hev').2.2
  · -- it is a failed publish, and nothing else in the turn can dispose of the message
    have hself : disposes ev = false := by
      obtain ⟨op, r⟩ := ev
      cases op <;> cases r <;> simp_all [disposes, isDlqFailure]
    have hnone : ∀ ev' ∈ xs ++ ev :: ys, disposes ev' = false := by
      refine List.forall_mem_append.mpr ⟨?_, List.forall_mem_cons.mpr ⟨hself, ?_⟩⟩
      · exact fun ev' hev' => (hxs ev' hev').2.1
      · exact fun ev' hev' => (hys ev' hev').2.1
    refine iff_of_false ?_ ?_
    · intro hd
      obtain ⟨ev', hev', hdisp⟩ := hd.exists_disposes
      rw [hnone ev' hev'] at hdisp
      cases hdisp
    · intro hok
      have hfalse := hok ev (by simp)
      rw [hev] at hfalse
      cases hfalse

/-! ## Settling a turn -/

theorem turn_eq_self {es : List Event} (hes : ∀ ev ∈ es, isDelivery ev = false) :
    turn es = es := by
  refine List.takeWhile_eq_self_iff.mpr ?_
  intro ev hev
  simp [hes ev hev]

theorem turn_append_delivery (b es : List Event) (m : Message) (r : Except Exn Unit) :
    turn (b ++ ⟨.deliver m, r⟩ :: es) = turn b := by
  induction b with
  | nil => rfl
  | cons ev b ih =>
      simp only [turn, List.cons_append, List.takeWhile_cons] at ih ⊢
      split
      · rw [ih]
      · rfl

/-- A decided turn extends a settled list of events. -/
theorem Settled.append {a es : List Event} {m : Message} (hs : Settled py h r₀ a)
    (hd : Decided py h r₀ a m es) : Settled py h r₀ (a ++ ⟨.deliver m, .ok ()⟩ :: es) := by
  have hnd := hd.not_isDelivery
  intro a' m' b heq
  rcases List.append_eq_append_iff.mp heq with ⟨c, rfl, hc⟩ | ⟨c, rfl, hc⟩
  · -- the delivery looked at is this one: no later event of the turn delivers
    cases c with
    | nil =>
        obtain ⟨hm, rfl⟩ := List.cons.inj hc
        cases hm
        rw [turn_eq_self hnd, List.append_nil]
        exact hd.disposed_iff
    | cons ev c =>
        have hmem : (⟨.deliver m', .ok ()⟩ : Event) ∈ es := by
          have hes : es = c ++ ⟨.deliver m', .ok ()⟩ :: b := (List.cons.inj hc).2
          rw [hes]
          simp
        exact absurd (hnd _ hmem) (by simp [isDelivery])
  · -- an earlier delivery: its turn is unchanged
    cases c with
    | nil =>
        obtain ⟨hm, rfl⟩ := List.cons.inj hc
        cases hm
        rw [turn_eq_self hnd]
        simpa using hd.disposed_iff
    | cons ev c =>
        obtain ⟨rfl, rfl⟩ := List.cons.inj hc
        show Disposed py h r₀ a' m' (turn (c ++ _)) ↔ ∀ ev ∈ turn (c ++ _), _
        rw [turn_append_delivery]
        exact hs a' m' c rfl

/-! ## What handling decides -/

theorem DlqEvents.decided {a es : List Event} {m : Message} {key : Json} {e : EventEnvelope}
    {msg : String} {n : ℕ} {rep : Except Exn Unit}
    (hds : DlqEvents py h m.topic key e msg n rep es) (hrep : Settles rep)
    (he : EventEnvelope.fromJson py m.value = .ok e ∨
      ∃ x raw id ts, EventEnvelope.fromJson py m.value = .error x ∧
        FraudKafkaConsumer.decodeValue py m.value = .ok raw ∧
        e = FraudKafkaConsumer.badEnvelope raw id ts) :
    Decided py h r₀ a m es := by
  obtain ⟨failedAt, id, ts, rfl⟩ := hds
  refine ⟨[⟨.isoNow, .ok failedAt⟩, ⟨.uuid4, .ok id⟩, ⟨.isoNow, .ok ts⟩], _, [], rfl, ?_,
    by simp, ?_⟩
  · simp [Quiet, isDelivery, disposes, isDlqFailure]
  · rcases hrep with rfl | ⟨x, rfl, hx⟩
    · exact Or.inl ⟨rfl, Or.inr (Or.inr ⟨key, _, List.mem_singleton.mpr rfl, e, msg, n, failedAt,
        rfl, he⟩)⟩
    · exact Or.inr hx

/-- However the handling of a message ends without raising, it is decided. -/
theorem Outcome.decided {c : FraudKafkaConsumer} {a es : List Event} {m : Message}
    {e : EventEnvelope} {n : ℕ} {u : Unit} (ho : Outcome py c h m e n (.ok u) es)
    (he : EventEnvelope.fromJson py m.value = .ok e) : Decided py h r₀ a m es := by
  rcases ho with ⟨k, fs, -, hfs, rfl⟩ | ⟨rep, ⟨fs, ds, msg, hfs, rfl, hds⟩, hrep⟩
  · exact ⟨fs, _, [], rfl, hfs.quiet, by simp,
      Or.inl ⟨rfl, Or.inl ⟨e, he, List.mem_singleton.mpr rfl⟩⟩⟩
  · exact (hds.decided hrep (Or.inl he)).prepend hfs.quiet

/-! ## The contract of the loop -/

/-- A commit is asked for only when everything delivered is settled; in return Redis shows a key
only if it was recorded. -/
def covering (py : PyLib) (h : DLQHandler) (r₀ : Keyspace String String ℚ) :
    Contract (List Event) Op.Ret Exn where
  guar := fun es op => op = .commit → Settled py h r₀ es
  rely := fun es ev es' => es' = es ++ [ev] ∧
    ∀ key, ev = ⟨.redisExists key, .ok true⟩ → Recorded r₀ es key

/-- A computation that never commits meets the contract. -/
theorem wp_covering {α : Type} {ok : Op → Prop} {p : Async α}
    {P : Except Exn α → List Event → Prop} (hp : Emits ok (fun _ => True) p P)
    (hok : ∀ op, ok op → op ≠ .commit) (q : List Event) :
    p.wp (covering py h r₀) (fun r q' => ∃ es, q' = q ++ es ∧ P r es) q := by
  refine Prog.wp_of_le (C := traced ok fun _ => True) ?_ ?_ (hp q)
  · intro q op hop hcommit
    exact absurd hcommit (hok op hop)
  · intro q ev q' hrely
    exact ⟨hrely.1, trivial⟩

variable {c : FraudKafkaConsumer} {a es : List Event} {m : Message}

/-- Between messages everything delivered is settled; after an exception nothing is asked. -/
def Resting (py : PyLib) (h : DLQHandler) (r₀ : Keyspace String String ℚ)
    (r : Except Exn Unit) (q : List Event) : Prop :=
  r = .ok () → Settled py h r₀ q

/-- After a decided turn the offset may be committed. -/
theorem wp_commitOffset (hs : Settled py h r₀ a) (hd : Decided py h r₀ a m es) :
    c.commitOffset.wp (covering py h r₀) (Resting py h r₀) (a ++ ⟨.deliver m, .ok ()⟩ :: es) := by
  unfold FraudKafkaConsumer.commitOffset
  split
  · rw [Prog.wp_await]
    refine ⟨fun _ => hs.append hd, ?_⟩
    rintro rep q' ⟨rfl, -⟩ -
    have hquiet : ∀ ev ∈ [(⟨.commit, rep⟩ : Event)], Quiet ev := by
      intro ev hev
      rw [List.mem_singleton.mp hev]
      exact Quiet.commit rep
    simpa using hs.append (hd.append hquiet)
  · exact fun _ => hs.append hd

/-- What the duplicate check tells: a positive answer means the id was recorded before. -/
theorem wp_isDuplicate (id : Json) (q : List Event) :
    (c.isDuplicate py id).wp (covering py h r₀) (fun r q' => match r with
      | .ok true => q' = q ++ [⟨.redisExists (FraudKafkaConsumer.dedupKey py id), .ok true⟩] ∧
          Recorded r₀ q (FraudKafkaConsumer.dedupKey py id)
      | .ok false => ∃ es, q' = q ++ es ∧ ∀ ev ∈ es, Quiet ev
      | .error _ => True) q := by
  unfold FraudKafkaConsumer.isDuplicate
  split
  · exact ⟨[], by simp, by simp⟩
  · rw [Prog.wp_tryExcept, Prog.wp_await]
    refine ⟨nofun, ?_⟩
    rintro (x | _ | _) q' ⟨rfl, hrec⟩
    · simp only
      split
      · exact ⟨_, rfl, by simp [Quiet, isDelivery, disposes, isDlqFailure]⟩
      · trivial
    · exact ⟨_, rfl, by simp [Quiet, isDelivery, disposes, isDlqFailure]⟩
    · exact ⟨rfl, hrec _ rfl⟩

/-- A key recorded by the time of the duplicate check was recorded before the delivery. -/
theorem Recorded.of_append {key : String} (hr : Recorded r₀ (a ++ es) key)
    (hes : ∀ k v ex, ⟨.redisSet k v ex, .ok ()⟩ ∉ es) : Recorded r₀ a key := by
  rcases hr with hr | ⟨v, ex, hev⟩
  · exact Or.inl hr
  · rcases List.mem_append.mp hev with hev | hev
    · exact Or.inr ⟨v, ex, hev⟩
    · exact absurd hev (hes _ _ _)

/-- The events of the loop itself between a delivery and the processing of the message. -/
def resumed : List Event := [⟨.running, .ok true⟩]

theorem resumed_quiet : ∀ ev ∈ resumed, Quiet ev := by
  simp [resumed, Quiet, isDelivery, disposes, isDlqFailure]

/-- Processing a message settles it, or ends the loop with an exception. -/
theorem wp_processMessage (hc : c.dlqHandler = some h) (hp : h.producer.started = true)
    (hs : Settled py h r₀ a) :
    (c.processMessage py m).wp (covering py h r₀) (Resting py h r₀)
      (a ++ ⟨.deliver m, .ok ()⟩ :: resumed) := by
  unfold FraudKafkaConsumer.processMessage
  cases he : EventEnvelope.fromJson py m.value with
  | error x =>
      simp only
      split
      · refine Prog.wp_mono (wp_covering (emits_rejected hc hp m x) Handling.ne_commit _) ?_
        rintro r q' ⟨es, rfl, hes⟩ rfl
        obtain ⟨raw, id, ts, ds, rep, hraw, rfl, hds, hrep⟩ := hes
        have hdec : Decided py h r₀ a m ds :=
          hds.decided hrep (Or.inr ⟨x, raw, id, ts, he, hraw, rfl⟩)
        have hquiet : ∀ ev ∈ resumed ++ [⟨.uuid4, .ok id⟩, ⟨.isoNow, .ok ts⟩], Quiet ev := by
          simp [resumed, Quiet, isDelivery, disposes, isDlqFailure]
        simpa using hs.append (hdec.prepend hquiet)
      · exact fun hx => by cases hx
  | ok e =>
      unfold FraudKafkaConsumer.accepted
      refine Prog.wp_seq (wp_isDuplicate e.eventId _) (fun x q' _ => nofun) ?_
      rintro (_ | _) q' hq
      · -- not seen before: handle, record, commit
        obtain ⟨ds, rfl, hds⟩ := hq
        simp only [Bool.false_eq_true, if_false]
        refine Prog.wp_seq (wp_covering (emits_handleWithRetry hc hp m e) Handling.ne_commit _)
          (fun x q' _ => nofun) ?_
        rintro _ q' ⟨es, rfl, hes⟩
        have hdec : Decided py h r₀ a m es := Outcome.decided hes he
        refine Prog.wp_seq (wp_covering (emits_markProcessed c e.eventId) ?_ _)
          (fun x q' _ => nofun) ?_
        · rintro op rfl
          exact nofun
        rintro _ q' ⟨ms, rfl, hms⟩
        have hquiet : ∀ ev ∈ ms, Quiet ev := by
          rcases hms with ⟨-, rfl, -⟩ | ⟨-, rep, rfl, -⟩
          · simp
          · intro ev hev
            rw [List.mem_singleton.mp hev]
            exact Quiet.redisSet _ _ _ _
        have hturn := ((hdec.prepend hds).prepend resumed_quiet).append hquiet
        have hcommit := wp_commitOffset (c := c) hs hturn
        simpa using hcommit
      · -- recorded before: skip and commit
        obtain ⟨rfl, hrec⟩ := hq
        have hbefore : Recorded r₀ a (FraudKafkaConsumer.dedupKey py e.eventId) :=
          hrec.of_append (by simp [resumed])
        have hdec : Decided py h r₀ a m
            [⟨.redisExists (FraudKafkaConsumer.dedupKey py e.eventId), .ok true⟩] :=
          ⟨[], _, [], rfl, by simp, by simp,
            Or.inl ⟨rfl, Or.inr (Or.inl ⟨e, he, List.mem_singleton.mpr rfl, hbefore⟩)⟩⟩
        have hcommit := wp_commitOffset (c := c) hs (hdec.prepend resumed_quiet)
        simpa using hcommit

/-- The loop commits only settled lists of deliveries. -/
theorem wp_consumeLoop (hc : c.dlqHandler = some h) (hp : h.producer.started = true)
    (messages : List Message) (hs : Settled py h r₀ a) :
    (c.consumeLoop py messages).wp (covering py h r₀) (fun _ _ => True) a := by
  induction messages generalizing a with
  | nil => trivial
  | cons m ms ih =>
      unfold FraudKafkaConsumer.consumeLoop
      have hdeliver : Op.deliver m ≠ .commit := by
        intro h
        cases h
      have hrunning : Op.running ≠ .commit := by
        intro h
        cases h
      refine Prog.wp_await_seq (fun h => absurd h hdeliver) (fun x q' _ => trivial) ?_
      rintro _ q' ⟨rfl, -⟩
      refine Prog.wp_await_seq (fun h => absurd h hrunning) (fun x q' _ => trivial) ?_
      rintro (_ | _) q' ⟨rfl, -⟩
      · trivial
      · simp only [if_true]
        have hm := wp_processMessage (m := m) hc hp hs
        rw [List.append_assoc]
        refine Prog.wp_seq hm (fun x q' _ => trivial) ?_
        intro _ q' hrest
        exact ih (hrest rfl)

/-- Whatever Redis shows was recorded. -/
def Shows (w : World) (r₀ : Keyspace String String ℚ) (es : List Event) : Prop :=
  ∀ key, (w.2.redis key).isSome = true → Recorded r₀ es key

/-- One step of the world keeps `Shows`. -/
theorem Shows.step {env : Env} {op : Op} {w : World} (hR : Shows w r₀ es) :
    Shows (perform env op w).2 r₀ (es ++ [⟨op, (perform env op w).1⟩]) := by
  have hmono : ∀ key, Recorded r₀ es key → Recorded r₀ (es ++ [⟨op, (perform env op w).1⟩]) key := by
    rintro key (hr | ⟨v, ex, hev⟩)
    · exact Or.inl hr
    · exact Or.inr ⟨v, ex, List.mem_append_left _ hev⟩
  intro key hkey
  rcases perform_redis env op w with heq | ⟨k, v, ex, rfl, -, hok, heq⟩
  · rw [heq] at hkey
    exact hmono key (hR key hkey)
  · by_cases hk : key = k
    · subst hk
      exact Or.inr ⟨v, ex, by simp [hok]⟩
    · rw [heq, Keyspace.set_of_ne _ hk] at hkey
      exact hmono key (hR key hkey)

/-- At every commit of every run, a message delivered so far is disposed of exactly when its
dead-letter publish, if there was one, did not fail with a `KafkaError`. -/
theorem commit_covers_disposed (py : PyLib) (c : FraudKafkaConsumer) (h : DLQHandler)
    (hc : c.Started) (hh : c.dlqHandler = some h) (env : Env) (w : World)
    (messages : List Message) (before after : List Event) (rep : Except Exn Unit)
    (hrun : ((c.consume py messages).run (perform env) w).events
      = before ++ ⟨.commit, rep⟩ :: after)
    (a b : List Event) (m : Message) (hm : before = a ++ ⟨.deliver m, .ok ()⟩ :: b) :
    Disposed py h w.2.redis a m (turn b) ↔ ∀ ev ∈ turn b, isDlqFailure ev = false := by
  have hp : h.producer.started = true := by
    obtain ⟨h', hh', hp⟩ := hc.dlqHandler
    rw [hh] at hh'
    cases hh'
    exact hp
  have hloop : (c.consume py messages).wp (covering py h w.2.redis) (fun _ _ => True) [] := by
    unfold FraudKafkaConsumer.consume
    rw [hc.running, hc.consumer]
    simp only [Bool.not_true, Bool.or_self, Bool.false_eq_true, if_false]
    rw [Prog.wp_tryExcept]
    refine Prog.wp_mono (wp_consumeLoop hh hp messages (by simp [Settled])) ?_
    rintro (x | _) q' -
    · simp only
      split <;> trivial
    · trivial
  have hsim : ∀ st ∈ ((c.consume py messages).run (perform env) w).steps, ∀ q,
      Shows st.pre w.2.redis q → ∃ q', (covering py h w.2.redis).rely q st.event q' ∧
        Shows (perform env st.event.op st.pre).2 w.2.redis q' := by
    rintro ⟨w', op, r⟩ hst q hR
    obtain rfl : r = (perform env op w').1 := Prog.reply_of_mem hst
    refine ⟨_, ⟨rfl, ?_⟩, hR.step⟩
    intro key hev
    obtain rfl : op = .redisExists key := congrArg Event.op hev
    have hshown := perform_exists (eq_of_heq (Event.mk.inj hev).2)
    exact hR key (Keyspace.isSome_of_exist hshown.symm)
  obtain ⟨q, hpath, -, -⟩ := Prog.wp_run (perform env) (fun w' es => Shows w' w.2.redis es) hloop
    (fun key hkey => Or.inl hkey) hsim
  have happ : ∀ q ev q', (covering py h w.2.redis).rely q ev q' → q' = q ++ [ev] :=
    fun _ _ _ hrely => hrely.1
  have hsettled := hpath.guar_at happ hrun rfl
  exact hsettled a m b hm

/-- The turn of `sampleMessage` when its handler returns. -/
def handledTurn : List Event :=
  [⟨.running, .ok true⟩, ⟨.redisExists sampleKey, .ok false⟩, ⟨.handlerFn sampleEvent, .ok ()⟩,
    ⟨.redisSet sampleKey "1" 86400, .ok ()⟩]

theorem commit_covers_disposed_handled :
    Disposed CompactJson.compactJson sampleDlq World.fresh.2.redis [] sampleMessage
      (turn handledTurn) ↔ ∀ ev ∈ turn handledTurn, isDlqFailure ev = false := by
  refine commit_covers_disposed _ sampleConsumer sampleDlq
    (FraudKafkaConsumer.started_connected _ rfl) rfl Env.calm World.fresh [sampleMessage]
    (⟨.deliver sampleMessage, .ok ()⟩ :: handledTurn) [] (.ok ()) ?_ [] handledTurn sampleMessage rfl
  rw [consume_sample rfl rfl]
  rfl

/-- The turn of `sampleMessage` when its handler fails and its dead-letter publish is refused. -/
def lostTurn : List Event :=
  [⟨.running, .ok true⟩, ⟨.redisExists sampleKey, .ok false⟩,
    ⟨.handlerFn sampleEvent, .error ⟨.other "ValueError", "boom"⟩⟩,
    ⟨.isoNow, .ok "now-4"⟩, ⟨.uuid4, .ok "id-5"⟩, ⟨.isoNow, .ok "now-6"⟩,
    ⟨.sendAndWait "fraud.events.dlq" (.str "acct-1") ((DLQHandler.dlqEnvelope sampleEvent
      (DLQHandler.dlqPayload "fraud.events" sampleEvent "boom" 1 "now-4") "id-5" "now-6").toJson
        CompactJson.compactJson), .error ⟨.kafkaError, "broker down"⟩⟩,
    ⟨.redisSet sampleKey "1" 86400, .ok ()⟩]

/-- The offset of an event whose dead-letter publish failed is committed all the same. -/
theorem commit_covers_lost_event :
    sampleConsumer.autoCommit = false ∧ 1 ≤ sampleConsumer.maxRetries ∧
    (∀ k x, failingEnv.send k = some x → x.isKafkaError = true) ∧
    ¬ ∀ before rep after,
      ((sampleConsumer.consume CompactJson.compactJson [sampleMessage]).run
        (perform failingEnv) World.fresh).events = before ++ ⟨.commit, rep⟩ :: after →
      ∀ a m b, before = a ++ ⟨.deliver m, .ok ()⟩ :: b →
        Disposed CompactJson.compactJson sampleDlq World.fresh.2.redis a m (turn b) := by
  refine ⟨rfl, by decide, ?_, ?_⟩
  · intro k x hx
    cases hx
    rfl
  · intro hclaim
    have hrun : ((sampleConsumer.consume CompactJson.compactJson [sampleMessage]).run
        (perform failingEnv) World.fresh).events
          = ⟨.deliver sampleMessage, .ok ()⟩ :: lostTurn ++ [⟨.commit, .ok ()⟩] := by
      rw [consume_sample rfl rfl]
      rfl
    have hd := hclaim _ _ [] hrun [] sampleMessage lostTurn rfl
    obtain ⟨ev, hev, hdisp⟩ := hd.exists_disposes
    have hnone : ∀ ev ∈ turn lostTurn, disposes ev = false := by
      simp [turn, lostTurn, isDelivery, disposes]
    rw [hnone ev hev] at hdisp
    cases hdisp

end FraudDetection.Kafka
