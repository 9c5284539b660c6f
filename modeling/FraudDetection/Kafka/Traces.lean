import FraudDetection.Async.Trace
import FraudDetection.Kafka.Consumer

/-!
# Traces of the consumer

What each part of `_process_message` can emit, as lists of events, up to the offset commit. The
specifications hold for any replies; an exception that leaves a function is traced back to the event
that brought it in.
-/

namespace FraudDetection.Kafka

open Async Python

/-! ## Vocabulary -/

/-- The exceptions of an operation that the consumer catches and logs. -/
def Op.absorbs : Op → Exn → Bool
  | .redisExists _, x => x.isException
  | .redisSet _ _ _, x => x.isException
  | .handlerFn _, x => x.isException
  | .sendAndWait _ _ _, x => x.isKafkaError
  | _, _ => false

/-- An event whose exception the consumer does not catch. -/
def Fatal (ev : Event) (x : Exn) : Prop := ev.reply = .error x ∧ ev.op.absorbs x = false

/-- Some event of `es` is fatal with `x`. -/
def RaisedBy (es : List Event) (x : Exn) : Prop := ∃ ev ∈ es, Fatal ev x

@[simp] theorem raisedBy_cons (ev : Event) (es : List Event) (x : Exn) :
    RaisedBy (ev :: es) x ↔ Fatal ev x ∨ RaisedBy es x := by
  simp [RaisedBy]

/-- `n` handler failures on `e`, with the backoff pauses between them. -/
inductive Failures (e : EventEnvelope) : ℕ → List Event → Prop
  | nil : Failures e 0 []
  | fail {n : ℕ} {es : List Event} {x : Exn} : x.isException = true → Failures e n es →
      Failures e (n + 1) (⟨.handlerFn e, .error x⟩ :: es)
  | sleep {n : ℕ} {es : List Event} {t : ℚ} : Failures e n es →
      Failures e n (⟨.sleep t, .ok ()⟩ :: es)

/-- The events of one dead-letter publish of `e`, answered by `rep`. -/
def DlqEvents (py : PyLib) (h : DLQHandler) (topic : String) (key : Json) (e : EventEnvelope)
    (msg : String) (n : ℕ) (rep : Except Exn Unit) (es : List Event) : Prop :=
  ∃ failedAt id ts,
    es = [⟨.isoNow, .ok failedAt⟩, ⟨.uuid4, .ok id⟩, ⟨.isoNow, .ok ts⟩,
      ⟨.sendAndWait (h.dlqTopic topic) key ((DLQHandler.dlqEnvelope e
        (DLQHandler.dlqPayload topic e msg n failedAt) id ts).toJson py), rep⟩]

/-- A publish the dead-letter handler counts as done: accepted, or refused with a `KafkaError`. -/
def Settles (rep : Except Exn Unit) : Prop :=
  rep = .ok () ∨ ∃ x, rep = .error x ∧ x.isKafkaError = true

/-- The operations of handling a message: those outside Redis, the offset commit and the loop. -/
def Handling (op : Op) : Prop :=
  match op with
  | .handlerFn _ | .sendAndWait _ _ _ | .uuid4 | .isoNow | .sleep _ => True
  | _ => False

theorem Handling.ne_commit (op : Op) (h : Handling op) : op ≠ .commit := by
  rintro rfl
  exact h

/-! ## What is asked for -/

section Asks

variable {py : PyLib}

theorem asks_publish {ok : Op → Prop} (p : FraudKafkaProducer) (topic : String) (key : Json)
    (e : EventEnvelope) (hok : ok (.sendAndWait topic key (e.toJson py))) :
    (p.publish py topic key e).Asks ok := by
  unfold FraudKafkaProducer.publish
  split
  · trivial
  · exact (Prog.asks_await hok).tryExcept fun _ => trivial

/-- A dead-letter publish generates its metadata and sends. -/
theorem asks_sendToDlq {ok : Op → Prop} (h : DLQHandler) (topic : String) (key : Json)
    (e : EventEnvelope) (msg : String) (n : ℕ) (huuid : ok .uuid4) (hnow : ok .isoNow)
    (hsend : ∀ t v, ok (.sendAndWait t key v)) : (h.sendToDlq py topic key e msg n).Asks ok := by
  unfold DLQHandler.sendToDlq
  refine (Prog.asks_await hnow).bind fun failedAt => ?_
  refine (Prog.asks_await huuid).bind fun id => (Prog.asks_await hnow).bind fun ts => ?_
  exact (asks_publish _ _ _ _ (hsend _ _)).tryExcept fun _ => trivial

/-- The retry loop calls the handler on its event, pauses, and sends under the key of the message or
the id of the event. -/
theorem asks_attempts {ok : Op → Prop} {c : FraudKafkaConsumer} {m : Message} {e : EventEnvelope}
    (huuid : ok .uuid4) (hnow : ok .isoNow) (hhandler : ok (.handlerFn e))
    (hsleep : ∀ t, ok (.sleep t)) (hsend : ∀ t v, ok (.sendAndWait t (orElse m.key e.eventId) v))
    (n : ℕ) (last : Option Exn) : (c.attempts py m e n last).Asks ok := by
  induction n generalizing last with
  | zero =>
      unfold FraudKafkaConsumer.attempts FraudKafkaConsumer.exhausted
      split
      · exact asks_sendToDlq _ _ _ _ _ _ huuid hnow hsend
      · trivial
  | succ n ih =>
      unfold FraudKafkaConsumer.attempts FraudKafkaConsumer.tryHandler
      refine Prog.Asks.bind ?_ fun raised => ?_
      · refine Prog.Asks.tryExcept ?_ fun _ => trivial
        exact (Prog.asks_await hhandler).bind fun _ => trivial
      · cases raised with
        | none => trivial
        | some exc =>
            refine (Prog.asks_lift _).bind fun backoff => ?_
            dsimp only
            split
            · exact (Prog.asks_await (hsleep backoff)).bind fun _ => ih _
            · exact ih _

end Asks

/-! ## Specifications -/

section Specs

variable {A : Event → Prop} (py : PyLib)

theorem emits_publish (p : FraudKafkaProducer) (hs : p.started = true) (topic : String)
    (key : Json) (e : EventEnvelope) :
    Emits Handling A (p.publish py topic key e) fun r es =>
      es = [⟨.sendAndWait topic key (e.toJson py), r⟩] := by
  simp only [FraudKafkaProducer.publish, hs, Bool.not_true, Bool.false_eq_true, if_false]
  refine Emits.tryExcept (P := fun r es => es = [⟨.sendAndWait topic key (e.toJson py), r⟩])
    (Emits.await trivial fun r _ => rfl) ?_ ?_ ?_
  · exact fun _ _ h => h
  · exact fun _ _ _ h => h
  · -- the handler logs and raises again
    rintro x es - rfl q
    exact ⟨[], (List.append_nil q).symm, by simp⟩

/-- A dead-letter publish returns once the broker has answered it, unless the answer is not a
`KafkaError`. -/
theorem emits_sendToDlq (h : DLQHandler) (hs : h.producer.started = true) (topic : String)
    (key : Json) (e : EventEnvelope) (msg : String) (n : ℕ) :
    Emits Handling A (h.sendToDlq py topic key e msg n) fun r es => match r with
      | .ok _ => ∃ rep, DlqEvents py h topic key e msg n rep es ∧ Settles rep
      | .error x => RaisedBy es x := by
  refine Emits.await_bind trivial (fun x _ => by simp [Fatal, Op.absorbs]) fun at_ _ => ?_
  refine Emits.await_bind trivial (fun x _ => by simp [Fatal, Op.absorbs]) fun id _ => ?_
  refine Emits.await_bind trivial (fun x _ => by simp [Fatal, Op.absorbs]) fun ts _ => ?_
  refine Emits.tryExcept (emits_publish py h.producer hs _ _ _) ?_ ?_ ?_
  · rintro _ _ rfl
    exact ⟨.ok (), ⟨at_, id, ts, rfl⟩, Or.inl rfl⟩
  · rintro x _ hx rfl
    simp [Fatal, Op.absorbs, hx]
  · -- a `KafkaError` is dropped
    rintro x _ hx rfl
    exact Emits.pure ⟨.error x, ⟨at_, id, ts, rfl⟩, Or.inr ⟨x, rfl, hx⟩⟩

/-- One handler call either returns, or fails with an exception that is kept, or ends the
processing. -/
theorem emits_tryHandler (e : EventEnvelope) :
    Emits Handling A (FraudKafkaConsumer.tryHandler e) fun r es => match r with
      | .ok none => es = [⟨.handlerFn e, .ok ()⟩]
      | .ok (some x) => es = [⟨.handlerFn e, .error x⟩] ∧ x.isException = true
      | .error x => RaisedBy es x := by
  refine Emits.tryExcept
    (P := fun r es => match r with
      | .ok none => es = [⟨.handlerFn e, .ok ()⟩]
      | .ok (some _) => False
      | .error x => es = [⟨.handlerFn e, .error x⟩]) ?_ ?_ ?_ ?_
  · exact Emits.await_bind trivial (fun x _ => rfl) fun _ _ => Emits.pure rfl
  · rintro (_ | _) es hes
    · exact hes
    · exact hes.elim
  · rintro x es hx rfl
    simp [Fatal, Op.absorbs, hx]
  · rintro x es hx rfl
    exact Emits.pure ⟨by simp, hx⟩

/-- The handler returned on `e` after fewer than `n` failures. -/
def Returned (e : EventEnvelope) (n : ℕ) (es : List Event) : Prop :=
  ∃ k fs, k < n ∧ Failures e k fs ∧ es = fs ++ [⟨.handlerFn e, .ok ()⟩]

theorem Returned.fail {e : EventEnvelope} {n : ℕ} {es : List Event} {x : Exn}
    (hx : x.isException = true) (h : Returned e n es) :
    Returned e (n + 1) (⟨.handlerFn e, .error x⟩ :: es) := by
  obtain ⟨k, fs, hk, hfs, rfl⟩ := h
  exact ⟨k + 1, _, by omega, .fail hx hfs, rfl⟩

theorem Returned.sleep {e : EventEnvelope} {n : ℕ} {es : List Event} {t : ℚ}
    (h : Returned e n es) : Returned e n (⟨.sleep t, .ok ()⟩ :: es) := by
  obtain ⟨k, fs, hk, hfs, rfl⟩ := h
  exact ⟨k, _, hk, .sleep hfs, rfl⟩

/-- The handler failed `n` times on `e` and the event was offered to the dead-letter topic, which
answered `rep`. -/
def GaveUp (c : FraudKafkaConsumer) (h : DLQHandler) (m : Message) (e : EventEnvelope) (n : ℕ)
    (rep : Except Exn Unit) (es : List Event) : Prop :=
  ∃ fs ds msg, Failures e n fs ∧ es = fs ++ ds ∧
    DlqEvents py h m.topic (orElse m.key e.eventId) e msg c.maxRetries rep ds

variable {py}

theorem GaveUp.fail {c : FraudKafkaConsumer} {h : DLQHandler} {m : Message} {e : EventEnvelope}
    {n : ℕ} {rep : Except Exn Unit} {es : List Event} {x : Exn} (hx : x.isException = true)
    (hg : GaveUp py c h m e n rep es) :
    GaveUp py c h m e (n + 1) rep (⟨.handlerFn e, .error x⟩ :: es) := by
  obtain ⟨fs, ds, msg, hfs, rfl, hds⟩ := hg
  exact ⟨_, ds, msg, .fail hx hfs, rfl, hds⟩

theorem GaveUp.sleep {c : FraudKafkaConsumer} {h : DLQHandler} {m : Message} {e : EventEnvelope}
    {n : ℕ} {rep : Except Exn Unit} {es : List Event} {t : ℚ} (hg : GaveUp py c h m e n rep es) :
    GaveUp py c h m e n rep (⟨.sleep t, .ok ()⟩ :: es) := by
  obtain ⟨fs, ds, msg, hfs, rfl, hds⟩ := hg
  exact ⟨_, ds, msg, .sleep hfs, rfl, hds⟩

/-- With `n` attempts left the handler failed on `e` until the backoff overflowed: the number of the
attempt that failed last is above 1024. -/
def Overflowed (c : FraudKafkaConsumer) (e : EventEnvelope) (n : ℕ) (x : Exn) (es : List Event) :
    Prop :=
  x = overflowError ∧ ∃ k ≤ n, Failures e k es ∧ 1024 < c.maxRetries - (n - k)

theorem Overflowed.fail {c : FraudKafkaConsumer} {e : EventEnvelope} {n : ℕ} {es : List Event}
    {x y : Exn} (hx : x.isException = true) (h : Overflowed c e n y es) :
    Overflowed c e (n + 1) y (⟨.handlerFn e, .error x⟩ :: es) := by
  obtain ⟨rfl, k, hk, hfs, hover⟩ := h
  exact ⟨rfl, k + 1, by omega, .fail hx hfs, by omega⟩

theorem Overflowed.sleep {c : FraudKafkaConsumer} {e : EventEnvelope} {n : ℕ} {es : List Event}
    {y : Exn} {t : ℚ} (h : Overflowed c e n y es) :
    Overflowed c e n y (⟨.sleep t, .ok ()⟩ :: es) := by
  obtain ⟨rfl, k, hk, hfs, hover⟩ := h
  exact ⟨rfl, k, hk, .sleep hfs, hover⟩

/-- The outcome of handling `e`: it returned, or was offered to the dead-letter topic, or an
exception came through, or the backoff overflowed. -/
def Outcome (py : PyLib) (c : FraudKafkaConsumer) (h : DLQHandler) (m : Message)
    (e : EventEnvelope) (n : ℕ) (r : Except Exn Unit) (es : List Event) : Prop :=
  match r with
  | .ok _ => Returned e n es ∨ ∃ rep, GaveUp py c h m e n rep es ∧ Settles rep
  | .error x => RaisedBy es x ∨ Overflowed c e n x es

theorem Outcome.fail {c : FraudKafkaConsumer} {h : DLQHandler} {m : Message} {e : EventEnvelope}
    {n : ℕ} {r : Except Exn Unit} {es : List Event} {x : Exn} (hx : x.isException = true)
    (ho : Outcome py c h m e n r es) :
    Outcome py c h m e (n + 1) r (⟨.handlerFn e, .error x⟩ :: es) := by
  cases r with
  | ok _ =>
      rcases ho with ho | ⟨rep, ho, hrep⟩
      · exact Or.inl (ho.fail hx)
      · exact Or.inr ⟨rep, ho.fail hx, hrep⟩
  | error y =>
      rcases ho with ho | ho
      · exact Or.inl ((raisedBy_cons _ _ _).mpr (Or.inr ho))
      · exact Or.inr (ho.fail hx)

theorem Outcome.sleep {c : FraudKafkaConsumer} {h : DLQHandler} {m : Message} {e : EventEnvelope}
    {n : ℕ} {r : Except Exn Unit} {es : List Event} {t : ℚ} (ho : Outcome py c h m e n r es) :
    Outcome py c h m e n r (⟨.sleep t, .ok ()⟩ :: es) := by
  cases r with
  | ok _ =>
      rcases ho with ho | ⟨rep, ho, hrep⟩
      · exact Or.inl ho.sleep
      · exact Or.inr ⟨rep, ho.sleep, hrep⟩
  | error y =>
      rcases ho with ho | ho
      · exact Or.inl ((raisedBy_cons _ _ _).mpr (Or.inr ho))
      · exact Or.inr ho.sleep

theorem emits_attempts {c : FraudKafkaConsumer} {h : DLQHandler} (hc : c.dlqHandler = some h)
    (hs : h.producer.started = true) (m : Message) (e : EventEnvelope) (n : ℕ)
    (last : Option Exn) :
    Emits Handling A (c.attempts py m e n last) (Outcome py c h m e n) := by
  induction n generalizing last with
  | zero =>
      -- no attempt left: the event goes to the dead-letter topic
      simp only [FraudKafkaConsumer.attempts, FraudKafkaConsumer.exhausted, hc]
      refine Emits.mono (emits_sendToDlq py h hs _ _ _ _ _) ?_
      rintro (x | _) es hes
      · exact Or.inl hes
      · obtain ⟨rep, hds, hrep⟩ := hes
        exact Or.inr ⟨rep, ⟨[], es, _, .nil, rfl, hds⟩, hrep⟩
  | succ n ih =>
      simp only [FraudKafkaConsumer.attempts]
      refine Emits.bind (emits_tryHandler e) (fun x es h => Or.inl h) ?_
      rintro (_ | x) es hes
      · obtain rfl : es = _ := hes
        exact Emits.pure (Or.inl ⟨0, [], n.succ_pos, .nil, rfl⟩)
      · obtain ⟨rfl, hx⟩ : es = _ ∧ _ := hes
        simp only
        cases hbackoff : backoffSeconds (c.maxRetries - n) with
        | error y =>
            -- the backoff overflows, and nothing catches that
            obtain ⟨hover, rfl⟩ := backoffSeconds_error hbackoff
            have hlast : Overflowed c e (n + 1) overflowError [⟨.handlerFn e, .error x⟩] :=
              ⟨rfl, 1, by omega, .fail hx .nil, by omega⟩
            exact fun q => ⟨[], (List.append_nil q).symm, Or.inr hlast⟩
        | ok backoff =>
            rw [Prog.lift_ok, pure_bind]
            split
            · -- a pause follows every failure but the last
              refine Emits.await_bind trivial ?_ fun _ _ => ?_
              · exact fun y _ => by simp [Outcome, Fatal, Op.absorbs]
              · exact Emits.mono (ih (some x)) fun r fs ho => ho.sleep.fail hx
            · exact Emits.mono (ih (some x)) fun r fs ho => ho.fail hx

/-- Handling an event calls the handler up to `max_retries` times. -/
theorem emits_handleWithRetry {c : FraudKafkaConsumer} {h : DLQHandler}
    (hc : c.dlqHandler = some h) (hs : h.producer.started = true) (m : Message)
    (e : EventEnvelope) :
    Emits Handling A (c.handleWithRetry py m e) (Outcome py c h m e c.maxRetries) :=
  emits_attempts hc hs m e c.maxRetries none

/-- An unparseable message is offered to the dead-letter topic as a synthetic envelope. -/
theorem emits_rejected {c : FraudKafkaConsumer} {h : DLQHandler} (hc : c.dlqHandler = some h)
    (hs : h.producer.started = true) (m : Message) (x : Exn) :
    Emits Handling A (c.rejected py m x) fun r es => match r with
      | .ok _ => ∃ raw id ts ds rep, FraudKafkaConsumer.decodeValue py m.value = .ok raw ∧
          es = ⟨.uuid4, .ok id⟩ :: ⟨.isoNow, .ok ts⟩ :: ds ∧
          DlqEvents py h m.topic (orElse m.key (.str "unknown"))
            (FraudKafkaConsumer.badEnvelope raw id ts) ("Deserialisation error: " ++ x.text) 0
            rep ds ∧ Settles rep
      | .error y => RaisedBy es y ∨ FraudKafkaConsumer.decodeValue py m.value = .error y := by
  simp only [FraudKafkaConsumer.rejected, hc]
  cases hraw : FraudKafkaConsumer.decodeValue py m.value with
  | error y => exact fun q => ⟨[], (List.append_nil q).symm, Or.inr rfl⟩
  | ok raw =>
      show Emits Handling A (await .uuid4 >>= _) _
      refine Emits.await_bind trivial ?_ fun id _ => ?_
      · exact fun y _ => by simp [Fatal, Op.absorbs]
      refine Emits.await_bind trivial ?_ fun ts _ => ?_
      · exact fun y _ => by simp [Fatal, Op.absorbs]
      refine Emits.mono (emits_sendToDlq py h hs _ _ _ _ _) ?_
      rintro (y | _) ds hds
      · exact Or.inl (by simpa [Fatal] using hds)
      · obtain ⟨rep, hds, hrep⟩ := hds
        exact ⟨raw, id, ts, ds, rep, rfl, rfl, hds, hrep⟩

/-- Marking an event awaits at most one `SET`. -/
theorem emits_markProcessed (c : FraudKafkaConsumer) (id : Json) :
    Emits (· = .redisSet (FraudKafkaConsumer.dedupKey py id) "1" c.dedupTtl) A
      (c.markProcessed py id) fun r es =>
      (c.redis = false ∧ es = [] ∧ r = .ok ()) ∨
      (c.redis = true ∧ ∃ rep,
        es = [⟨.redisSet (FraudKafkaConsumer.dedupKey py id) "1" c.dedupTtl, rep⟩] ∧
        match r with
        | .ok _ => True
        | .error x => RaisedBy es x) := by
  simp only [FraudKafkaConsumer.markProcessed]
  cases hr : c.redis with
  | false => exact Emits.pure (Or.inl ⟨rfl, rfl, rfl⟩)
  | true =>
      simp only [Bool.not_true, Bool.false_eq_true, if_false]
      refine Emits.tryExcept
        (P := fun r es => es = [⟨.redisSet (FraudKafkaConsumer.dedupKey py id) "1" c.dedupTtl, r⟩])
        (Emits.await rfl fun r _ => rfl) ?_ ?_ ?_
      · rintro a es rfl
        exact Or.inr ⟨trivial, _, rfl, trivial⟩
      · rintro x es hx rfl
        exact Or.inr ⟨trivial, _, rfl, by simp [Fatal, Op.absorbs, hx]⟩
      · rintro x es hx rfl
        exact Emits.pure (Or.inr ⟨trivial, _, rfl, trivial⟩)

end Specs

end FraudDetection.Kafka
