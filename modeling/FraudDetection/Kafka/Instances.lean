import FraudDetection.Async.Interleaving
import FraudDetection.Kafka.Runs

/-!
# Several instances over one Redis

Consumers that run side by side: each has its own messages, handler and clock, and all share Redis
and the topics. The duplicate check, the handler call and the marker write are three operations, so
another instance can move between them.

Every instance goes through the phases of `Phase` in order (`wp_consume`): it checks an id, handles
the event, records the id. `KeyInv` relates the phases of all instances to the markers written and
the handler calls that returned so far; each move preserves it for every key (`keyInv_step`), as
long as an instance that finds no marker finds no other instance at work on the id either.
-/

namespace FraudDetection.Kafka

open Async Python Store

/-! ## Deployments -/

/-- Consumers that run side by side, each on its own messages and in its own environment. -/
structure Deployment (ι : Type) where
  consumer : ι → FraudKafkaConsumer
  messages : ι → List Message
  env : ι → Env

/-- The moves of a deployment. -/
abbrev Moves (ι : Type) := List (Move ι Counters Cluster Op.Ret Exn)

namespace Deployment

variable {ι : Type} [DecidableEq ι] (py : PyLib) (d : Deployment ι) (cl : Cluster)

/-- Every consumer in front of its messages, on one cluster. -/
def system : System ι Counters Cluster Op.Ret Exn where
  threads := fun i => (d.consumer i).consume py (d.messages i)
  locals := fun _ => ⟨0, 0, 0⟩
  shared := cl

/-- What happens when the consumers move in the order of the schedule. -/
def trace (schedule : List ι) : Moves ι :=
  (d.system py cl).trace (fun i => perform (d.env i)) schedule

end Deployment

/-! ## Phases -/

/-- Where an instance stands: between events, or past a duplicate check that found no marker, or
past a handler call that returned. -/
inductive Phase where
  | idle
  | checked (key : String)
  | handled (key : String)

/-- The instance has checked the key as new, and has neither recorded it nor given it up. -/
def Phase.holds (q : Phase) (key : String) : Prop := q = .checked key ∨ q = .handled key

/-- The phase of an instance that an exception ends: it gives up what it has not handled. -/
def Phase.abandon : Phase → Phase
  | .checked _ => .idle
  | q => q

theorem Phase.abandon_of_not_checked {q : Phase} (h : ∀ key, q ≠ .checked key) : q.abandon = q := by
  cases q with
  | checked key => exact absurd rfl (h key)
  | idle => rfl
  | handled key => rfl

/-- The phase after an event. -/
def Phase.next (py : PyLib) (q : Phase) (ev : Event) : Phase :=
  match ev with
  | ⟨.redisExists key, .ok false⟩ => .checked key
  | ⟨.redisSet _ _ _, .ok _⟩ => .idle
  | ⟨.handlerFn e, .ok _⟩ => .handled (FraudKafkaConsumer.dedupKey py e.eventId)
  | ⟨op, .error x⟩ => if op.absorbs x then q else q.abandon
  | _ => q

/-- Redis answered, if it was asked. -/
def Answered (ev : Event) : Prop :=
  match ev with
  | ⟨.redisExists _, .error _⟩ => False
  | ⟨.redisSet _ _ _, .error _⟩ => False
  | _ => True

/-- An instance checks one id at a time, calls the handler on events it has checked, and records
what it has checked. -/
def oneAtATime (py : PyLib) : Contract Phase Op.Ret Exn where
  guar := fun q op =>
    match op with
    | .redisExists _ => q = .idle
    | .redisSet key _ ex => q.holds key ∧ 0 < ex
    | .handlerFn e => q = .checked (FraudKafkaConsumer.dedupKey py e.eventId)
    | _ => True
  rely := fun q ev q' => q' = q.next py ev ∧ Answered ev

section Contract

variable {py : PyLib} {c : FraudKafkaConsumer}

/-- The operations that leave the phase of an instance alone. -/
def Neutral (op : Op) : Prop :=
  match op with
  | .redisExists _ | .redisSet _ _ _ | .handlerFn _ => False
  | _ => True

theorem next_of_neutral {op : Op} (h : Neutral op) (q : Phase) (a : op.Ret) :
    q.next py ⟨op, .ok a⟩ = q := by
  cases op with
  | redisExists key => exact h.elim
  | redisSet key v ex => exact h.elim
  | handlerFn e => exact h.elim
  | _ => rfl

theorem next_error (q : Phase) (op : Op) (x : Exn) :
    q.next py ⟨op, .error x⟩ = if op.absorbs x then q else q.abandon := by
  cases op <;> rfl

/-- Nothing but a duplicate check takes an instance out of idleness. -/
theorem wp_of_neutral {α : Type} {p : Async α} (hp : p.Asks Neutral) :
    p.wp (oneAtATime py) (fun _ q => q = .idle) .idle := by
  refine Prog.wp_of_asks hp ?_ ?_
  · intro op hop
    cases op with
    | redisExists key => exact hop.elim
    | redisSet key v ex => exact hop.elim
    | handlerFn e => exact hop.elim
    | _ => trivial
  · rintro op (x | a) q hop ⟨rfl, -⟩
    · rw [next_error]
      split <;> rfl
    · exact next_of_neutral hop _ a

theorem asks_neutral_commitOffset : c.commitOffset.Asks Neutral := by
  unfold FraudKafkaConsumer.commitOffset
  split
  · exact Prog.asks_await trivial
  · trivial

theorem asks_neutral_rejected (m : Message) (x : Exn) : (c.rejected py m x).Asks Neutral := by
  unfold FraudKafkaConsumer.rejected
  split
  · refine (Prog.asks_lift _).bind fun raw => ?_
    refine (Prog.asks_await trivial).bind fun id => (Prog.asks_await trivial).bind fun ts => ?_
    exact asks_sendToDlq _ _ _ _ _ _ trivial trivial fun _ _ => trivial
  · trivial

/-- A dead-letter publish that returns leaves the phase as it was. -/
theorem wp_sendToDlq (h : DLQHandler) (topic : String) (key : Json) (e : EventEnvelope)
    (msg : String) (n : ℕ) (q : Phase) :
    (h.sendToDlq py topic key e msg n).wp (oneAtATime py) (fun r q' => r = .ok () → q' = q) q := by
  unfold DLQHandler.sendToDlq FraudKafkaProducer.publish
  refine Prog.wp_await_seq trivial (fun x q₁ _ => nofun) ?_
  rintro failedAt q₁ ⟨rfl, -⟩
  refine Prog.wp_await_seq trivial (fun x q₂ _ => nofun) ?_
  rintro id q₂ ⟨rfl, -⟩
  refine Prog.wp_await_seq trivial (fun x q₃ _ => nofun) ?_
  rintro ts q₃ ⟨rfl, -⟩
  rw [Prog.wp_tryExcept]
  split
  · rw [Prog.wp_raise]
    simp [Exn.isKafkaError]
  · rw [Prog.wp_tryExcept, Prog.wp_await]
    refine ⟨trivial, ?_⟩
    rintro (x | u) q₄ ⟨rfl, -⟩
    · -- a `KafkaError` is raised again by `publish` and dropped here
      simp only
      by_cases hx : x.isKafkaError = true
      · rw [if_pos hx, Prog.wp_raise]
        simp only
        rw [if_pos hx]
        intro _
        rw [next_error, Op.absorbs, if_pos hx]
      · rw [if_neg hx, if_neg hx]
        exact nofun
    · exact fun _ => rfl

/-- The duplicate check leaves an instance idle, or past the check of the id. -/
theorem wp_check (hredis : c.redis = true) (id : Json) :
    (c.isDuplicate py id).wp (oneAtATime py) (fun r q => match r with
      | .ok true => q = .idle
      | .ok false => q = .checked (FraudKafkaConsumer.dedupKey py id)
      | .error _ => True) .idle := by
  unfold FraudKafkaConsumer.isDuplicate
  rw [hredis]
  simp only [Bool.not_true, Bool.false_eq_true, if_false]
  rw [Prog.wp_tryExcept, Prog.wp_await]
  refine ⟨rfl, ?_⟩
  rintro (x | b) q ⟨rfl, hanswered⟩
  · exact hanswered.elim
  · cases b <;> rfl

/-- Handling keeps hold of the key. -/
theorem wp_attempts (m : Message) (e : EventEnvelope) (n : ℕ) (last : Option Exn) :
    (c.attempts py m e n last).wp (oneAtATime py)
      (fun r q => r = .ok () → q.holds (FraudKafkaConsumer.dedupKey py e.eventId))
      (.checked (FraudKafkaConsumer.dedupKey py e.eventId)) := by
  induction n generalizing last with
  | zero =>
      unfold FraudKafkaConsumer.attempts FraudKafkaConsumer.exhausted
      split
      · exact Prog.wp_mono (wp_sendToDlq _ _ _ _ _ _ _) fun r q hq hr => Or.inl (hq hr)
      · exact fun _ => Or.inl rfl
  | succ n ih =>
      unfold FraudKafkaConsumer.attempts FraudKafkaConsumer.tryHandler
      rw [Prog.wp_bind, Prog.wp_tryExcept, Prog.wp_bind, Prog.wp_await]
      refine ⟨rfl, ?_⟩
      rintro (x | u) q ⟨rfl, -⟩
      · -- the handler failed: the phase is as before, unless that ends the instance
        simp only
        split
        · rename_i hx
          rw [next_error, Op.absorbs, if_pos hx, Prog.wp_pure]
          simp only
          cases backoffSeconds (c.maxRetries - n) with
          | error y =>
              -- the backoff overflows, which ends the instance
              intro hr
              cases hr
          | ok backoff =>
              rw [Prog.lift_ok, pure_bind]
              split
              · refine Prog.wp_await_seq trivial ?_ ?_
                · intro y q _ hr
                  cases hr
                · rintro v q ⟨rfl, -⟩
                  exact ih _
              · exact ih _
        · intro hr
          cases hr
      · intro _
        exact Or.inr rfl

/-- Recording ends the work on the key. -/
theorem wp_record (hredis : c.redis = true) (httl : 0 < c.dedupTtl) {id : Json} {q : Phase}
    (hq : q.holds (FraudKafkaConsumer.dedupKey py id)) :
    (c.markProcessed py id).wp (oneAtATime py) (fun r q' => r = .ok () → q' = .idle) q := by
  unfold FraudKafkaConsumer.markProcessed
  rw [hredis]
  simp only [Bool.not_true, Bool.false_eq_true, if_false]
  rw [Prog.wp_tryExcept, Prog.wp_await]
  refine ⟨⟨hq, httl⟩, ?_⟩
  rintro (x | u) q' ⟨rfl, hanswered⟩
  · exact hanswered.elim
  · exact fun _ => rfl

/-- Processing a message starts and ends idle. -/
theorem wp_process (hredis : c.redis = true) (httl : 0 < c.dedupTtl) (m : Message) :
    (c.processMessage py m).wp (oneAtATime py) (fun r q => r = .ok () → q = .idle) .idle := by
  unfold FraudKafkaConsumer.processMessage
  split
  · rename_i e he
    unfold FraudKafkaConsumer.accepted
    refine Prog.wp_seq (wp_check hredis e.eventId) (fun x q _ => nofun) ?_
    rintro (_ | _) q hq
    · subst hq
      simp only [Bool.false_eq_true, if_false]
      refine Prog.wp_seq (wp_attempts m e c.maxRetries none) (fun x q _ => nofun) ?_
      intro u q hq
      refine Prog.wp_seq (wp_record hredis httl (hq rfl)) (fun x q _ => nofun) ?_
      intro v q hq
      have hidle := hq rfl
      subst hidle
      exact Prog.wp_mono (wp_of_neutral asks_neutral_commitOffset) fun r q' hq' _ => hq'
    · subst hq
      exact Prog.wp_mono (wp_of_neutral asks_neutral_commitOffset) fun r q' hq' _ => hq'
  · split
    · exact Prog.wp_mono (wp_of_neutral (asks_neutral_rejected _ _)) fun r q' hq' _ => hq'
    · exact nofun

/-- A consumer goes through its messages one at a time. -/
theorem wp_consume (hredis : c.redis = true) (httl : 0 < c.dedupTtl) (messages : List Message) :
    (c.consume py messages).wp (oneAtATime py) (fun _ _ => True) .idle := by
  have hloop : (c.consumeLoop py messages).wp (oneAtATime py) (fun _ _ => True) .idle := by
    induction messages with
    | nil => trivial
    | cons m ms ih =>
        unfold FraudKafkaConsumer.consumeLoop
        refine Prog.wp_await_seq trivial (fun x q _ => trivial) ?_
        rintro u q ⟨rfl, -⟩
        refine Prog.wp_await_seq trivial (fun x q _ => trivial) ?_
        rintro b q ⟨rfl, -⟩
        split
        · refine Prog.wp_seq (wp_process hredis httl m) (fun x q _ => trivial) ?_
          intro v q hq
          rw [hq rfl]
          exact ih
        · trivial
  unfold FraudKafkaConsumer.consume
  split
  · trivial
  · rw [Prog.wp_tryExcept]
    refine Prog.wp_mono hloop ?_
    rintro (x | u) q -
    · simp only
      split <;> trivial
    · trivial

end Contract

/-! ## One key -/

section OneKey

variable {ι : Type}

/-- What holds of a key, given the phases of the instances, whether it has been recorded, and how
many handler calls on its events returned. -/
structure KeyInv (key : String) (ph : ι → Phase) (recorded : Prop) (n : ℕ) : Prop where
  unique : ∀ i j, (ph i).holds key → (ph j).holds key → i = j
  unrecorded : ∀ i, (ph i).holds key → ¬ recorded
  pending : ∀ i, ph i = .checked key → n = 0
  absent : ¬ recorded → (∀ i, ¬ (ph i).holds key) → n = 0
  once : n ≤ 1

variable {key : String} {ph ph' : ι → Phase} {recorded recorded' : Prop} {n : ℕ}

theorem not_holds_idle : ¬ Phase.idle.holds key := by
  rintro (h | h) <;> cases h

theorem holds_checked {k : String} : (Phase.checked k).holds key ↔ k = key := by
  simp [Phase.holds]

theorem holds_handled {k : String} : (Phase.handled k).holds key ↔ k = key := by
  simp [Phase.holds]

/-- A move that is not about the key preserves its invariant. -/
theorem KeyInv.frame (h : KeyInv key ph recorded n) (hrec : recorded' ↔ recorded)
    (hph : ∀ i, ph' i = ph i ∨ ¬ (ph' i).holds key ∧ ¬ (ph i).holds key) :
    KeyInv key ph' recorded' n := by
  have hholds : ∀ i, (ph' i).holds key ↔ (ph i).holds key := by
    intro i
    rcases hph i with heq | ⟨hno', hno⟩
    · rw [heq]
    · exact iff_of_false hno' hno
  have hchecked : ∀ i, ph' i = .checked key → ph i = .checked key := by
    intro i hi
    rcases hph i with heq | ⟨hno', -⟩
    · rw [← heq, hi]
    · exact absurd (Or.inl hi) hno'
  refine ⟨?_, ?_, ?_, ?_, h.once⟩
  · intro i j hi hj
    exact h.unique i j ((hholds i).mp hi) ((hholds j).mp hj)
  · intro i hi hr
    exact h.unrecorded i ((hholds i).mp hi) (hrec.mp hr)
  · intro i hi
    exact h.pending i (hchecked i hi)
  · intro hr hnone
    exact h.absent (fun hr' => hr (hrec.mpr hr')) fun i hi => hnone i ((hholds i).mpr hi)

theorem KeyInv.of_iff (h : KeyInv key ph recorded n) (hrec : recorded' ↔ recorded) :
    KeyInv key ph recorded' n := h.frame hrec fun _ => Or.inl rfl

/-- Beside an instance at work on the key no other is. -/
theorem KeyInv.others (h : KeyInv key ph recorded n) {i : ι} (hi : (ph i).holds key) :
    ∀ j, j ≠ i → ¬ (ph j).holds key := by
  intro j hne hj
  exact hne (h.unique j i hj hi)

variable [DecidableEq ι]

/-- An instance that was not at work on the key, and is not now, leaves its invariant as it was. -/
theorem KeyInv.frame_update (h : KeyInv key ph recorded n) (hrec : recorded' ↔ recorded) {i : ι}
    {q : Phase} (hq : ¬ q.holds key) (hi : ¬ (ph i).holds key) :
    KeyInv key (Function.update ph i q) recorded' n := by
  refine h.frame hrec ?_
  intro j
  by_cases hj : j = i
  · subst hj
    rw [Function.update_self]
    exact Or.inr ⟨hq, hi⟩
  · exact Or.inl (Function.update_of_ne hj _ _)

/-- Where no other instance is at work on the key, only the one that moved can be. -/
theorem eq_of_holds_update {i j : ι} {q : Phase} (hothers : ∀ j, j ≠ i → ¬ (ph j).holds key)
    (hj : (Function.update ph i q j).holds key) : j = i := by
  by_contra hne
  rw [Function.update_of_ne hne] at hj
  exact hothers j hne hj

/-- Where no other instance is at work on the key and the one that moved is idle, none is. -/
theorem not_holds_update_idle {i : ι} (hothers : ∀ j, j ≠ i → ¬ (ph j).holds key) (j : ι) :
    ¬ (Function.update ph i .idle j).holds key := by
  intro hj
  obtain rfl := eq_of_holds_update hothers hj
  rw [Function.update_self] at hj
  exact not_holds_idle hj

/-- An instance that finds the key unrecorded, and no other instance at work on it, takes it up. -/
theorem KeyInv.check (h : KeyInv key ph recorded n) {i : ι} (hr : ¬ recorded)
    (hnone : ∀ j, ¬ (ph j).holds key) :
    KeyInv key (Function.update ph i (.checked key)) recorded n := by
  have hzero := h.absent hr hnone
  refine ⟨?_, fun _ _ => hr, fun _ _ => hzero, fun _ _ => hzero, h.once⟩
  intro j l hj hl
  rw [eq_of_holds_update (fun j _ => hnone j) hj, eq_of_holds_update (fun j _ => hnone j) hl]

/-- A handler call that returns on the key is the first. -/
theorem KeyInv.handle (h : KeyInv key ph recorded n) {i : ι} (hi : ph i = .checked key) :
    KeyInv key (Function.update ph i (.handled key)) recorded (n + 1) := by
  have hzero := h.pending i hi
  have hothers := h.others (Or.inl hi)
  refine ⟨?_, ?_, ?_, ?_, by omega⟩
  · intro j l hj hl
    rw [eq_of_holds_update hothers hj, eq_of_holds_update hothers hl]
  · intro j _
    exact h.unrecorded i (Or.inl hi)
  · intro j hj
    obtain rfl := eq_of_holds_update hothers (Or.inl hj)
    rw [Function.update_self] at hj
    cases hj
  · intro _ hnone
    -- not recorded yet, but `i` is still at work on it
    refine absurd ?_ (hnone i)
    rw [Function.update_self]
    exact Or.inr rfl

/-- Once the key is recorded no instance is at work on it. -/
theorem KeyInv.record (h : KeyInv key ph recorded n) {i : ι} (hi : (ph i).holds key)
    (hr : recorded') : KeyInv key (Function.update ph i .idle) recorded' n := by
  have hnone := not_holds_update_idle (h.others hi)
  refine ⟨?_, ?_, ?_, ?_, h.once⟩
  · intro j l hj _
    exact absurd hj (hnone j)
  · intro j hj
    exact absurd hj (hnone j)
  · intro j hj
    exact absurd (Or.inl hj) (hnone j)
  · intro hnot
    exact absurd hr hnot

/-- An instance that gives the key up leaves it as if it had not been checked. -/
theorem KeyInv.abandon (h : KeyInv key ph recorded n) {i : ι} (hi : ph i = .checked key) :
    KeyInv key (Function.update ph i .idle) recorded n := by
  have hzero := h.pending i hi
  have hnone := not_holds_update_idle (h.others (Or.inl hi))
  refine ⟨?_, ?_, fun _ _ => hzero, fun _ _ => hzero, h.once⟩
  · intro j l hj _
    exact absurd hj (hnone j)
  · intro j hj
    exact absurd hj (hnone j)

end OneKey

/-! ## All moves -/

section Moves

variable {ι : Type} (py : PyLib)

/-- The event writes the marker of the key. -/
def sets (key : String) (ev : Event) : Bool :=
  match ev with
  | ⟨.redisSet k _ _, .ok _⟩ => k == key
  | _ => false

/-- The event is a handler call on the key's event that returned. -/
def succeeds (key : String) (ev : Event) : Bool :=
  match ev with
  | ⟨.handlerFn e, .ok _⟩ => FraudKafkaConsumer.dedupKey py e.eventId == key
  | _ => false

/-- Some move wrote the marker of the key. -/
def MarkerWritten (key : String) (moves : Moves ι) : Prop := ∃ x ∈ moves, sets key x.2.event = true

/-- The number of handler calls on the key's events that returned. -/
def successes (key : String) (moves : Moves ι) : ℕ :=
  moves.countP fun x => succeeds py key x.2.event

theorem markerWritten_append (key : String) (moves : Moves ι)
    (x : Move ι Counters Cluster Op.Ret Exn) :
    MarkerWritten key (moves ++ [x]) ↔ MarkerWritten key moves ∨ sets key x.2.event = true := by
  simp [MarkerWritten, or_and_right, exists_or]

theorem successes_append (key : String) (moves : Moves ι)
    (x : Move ι Counters Cluster Op.Ret Exn) :
    successes py key (moves ++ [x])
      = successes py key moves + if succeeds py key x.2.event then 1 else 0 := by
  rw [successes, List.countP_append, List.countP_singleton]
  rfl

variable [DecidableEq ι]

/-- The phase an instance is in after some moves. -/
def phaseOf (moves : Moves ι) (i : ι) : Phase :=
  (System.eventsOf i moves).foldl (Phase.next py) .idle

theorem phaseOf_append (moves : Moves ι) (i : ι) (st : Step World Op.Ret Exn) :
    phaseOf py (moves ++ [(i, st)])
      = Function.update (phaseOf py moves) i ((phaseOf py moves i).next py st.event) := by
  funext j
  unfold phaseOf System.eventsOf
  rw [List.filter_append, List.map_append, List.foldl_append]
  by_cases hj : j = i
  · subst hj
    simp
  · have hij : i ≠ j := fun h => hj h.symm
    simp [hj, hij]

variable {py}

/-- An exception: the instance goes on, or gives up what it has not handled. -/
theorem keyInv_error {moves : Moves ι} {key : String} {recorded : Prop} {n : ℕ}
    (h : KeyInv key (phaseOf py moves) recorded n) (i : ι) (op : Op) (x : Exn) :
    KeyInv key (Function.update (phaseOf py moves) i
      ((phaseOf py moves i).next py ⟨op, .error x⟩)) recorded n := by
  rw [next_error]
  split
  -- the exception is caught, and the instance is where it was
  · rw [Function.update_eq_self]
    exact h
  · by_cases hchecked : ∃ k, phaseOf py moves i = .checked k
    · obtain ⟨k, hphase⟩ := hchecked
      have hidle : (phaseOf py moves i).abandon = .idle := by rw [hphase]; rfl
      rw [hidle]
      by_cases hk : k = key
      · subst hk
        exact h.abandon hphase
      · refine h.frame_update Iff.rfl not_holds_idle ?_
        rw [hphase]
        exact fun hholds => hk (holds_checked.mp hholds)
    · rw [Phase.abandon_of_not_checked fun k hk => hchecked ⟨k, hk⟩, Function.update_eq_self]
      exact h

/-- One move preserves the invariant of every key, where an instance that finds no marker of a key
finds it unrecorded and no other instance at work on it. -/
theorem keyInv_step {moves : Moves ι} {i : ι} {st : Step World Op.Ret Exn}
    (h : ∀ key, KeyInv key (phaseOf py moves) (MarkerWritten key moves) (successes py key moves))
    (hguar : (oneAtATime py).guar (phaseOf py moves i) st.event.op)
    (hnew : ∀ key, st.event = ⟨.redisExists key, .ok false⟩ →
      ¬ MarkerWritten key moves ∧ ∀ j, j ≠ i → ¬ (phaseOf py moves j).holds key) (key : String) :
    KeyInv key (phaseOf py (moves ++ [(i, st)])) (MarkerWritten key (moves ++ [(i, st)]))
      (successes py key (moves ++ [(i, st)])) := by
  obtain ⟨pre, op, r⟩ := st
  rw [phaseOf_append, markerWritten_append, successes_append]
  have hkey := h key
  rcases r with x | a
  · have hsets : sets key ⟨op, .error x⟩ = false := by
      cases op <;> rfl
    have hsucc : succeeds py key ⟨op, .error x⟩ = false := by
      cases op <;> rfl
    simp only [hsets, hsucc, Bool.false_eq_true, or_false, if_false, Nat.add_zero]
    exact keyInv_error hkey i op x
  have hsame : Phase.next py (phaseOf py moves i) ⟨op, .ok a⟩ = phaseOf py moves i →
      sets key ⟨op, .ok a⟩ = false → succeeds py key ⟨op, .ok a⟩ = false →
      KeyInv key (Function.update (phaseOf py moves) i
        (Phase.next py (phaseOf py moves i) ⟨op, .ok a⟩))
        (MarkerWritten key moves ∨ sets key ⟨op, .ok a⟩ = true)
        (successes py key moves + if succeeds py key ⟨op, .ok a⟩ = true then 1 else 0) := by
    intro hnext hsets hsucc
    rw [hnext, Function.update_eq_self, hsets, hsucc]
    exact hkey.of_iff (by simp)
  cases op with
  | redisExists k =>
      have hidle : phaseOf py moves i = .idle := hguar
      have hfree : ¬ (phaseOf py moves i).holds key := by
        rw [hidle]
        exact not_holds_idle
      cases a with
      | true => exact hsame rfl rfl rfl
      | false =>
          by_cases hk : k = key
          · -- the instance takes up this key: none, itself included, was at work on it
            subst hk
            obtain ⟨hrec, hnone⟩ := hnew k rfl
            refine (hkey.check (i := i) hrec ?_).of_iff (by simp [sets])
            intro j
            by_cases hji : j = i
            · subst hji
              exact hfree
            · exact hnone j hji
          · refine hkey.frame_update (by simp [sets]) ?_ hfree
            exact fun hholds => hk (holds_checked.mp hholds)
  | redisSet k v ex =>
      by_cases hk : k = key
      · subst hk
        exact hkey.record hguar.1 (Or.inr (by simp [sets]))
      · -- the marker of another key, which is the one the instance was at work on
        refine hkey.frame_update (by simp [sets, hk]) not_holds_idle ?_
        intro hholds
        rcases hguar.1 with hphase | hphase
        · rw [hphase] at hholds
          exact hk (holds_checked.mp hholds)
        · rw [hphase] at hholds
          exact hk (holds_handled.mp hholds)
  | handlerFn e =>
      have hchecked : phaseOf py moves i
        = .checked (FraudKafkaConsumer.dedupKey py e.eventId) := hguar
      by_cases hk : FraudKafkaConsumer.dedupKey py e.eventId = key
      · subst hk
        have hone := hkey.handle hchecked
        simp only [succeeds, beq_self_eq_true, if_true]
        exact hone.of_iff (by simp [sets])
      · have hzero : succeeds py key ⟨.handlerFn e, .ok a⟩ = false := by
          simpa [succeeds] using hk
        rw [hzero]
        refine hkey.frame_update (by simp [sets]) ?_ ?_
        · exact fun hholds => hk (holds_handled.mp hholds)
        · rw [hchecked]
          exact fun hholds => hk (holds_checked.mp hholds)
  | _ => exact hsame rfl rfl rfl

end Moves

/-! ## At most one success -/

/-- Whether a key is visible in Redis to the instance that takes a step, at the time of the step. -/
def visible (env : Env) (st : Step World Op.Ret Exn) (key : String) : Bool :=
  st.pre.2.redis.exist (env.clock st.pre.1.ops) key

/-- A working Redis answers what an instance asks. -/
theorem answered_of_guar {py : PyLib} {env : Env} (hw : env.RedisWorks) {q : Phase}
    {st : Step World Op.Ret Exn} (hreply : st.event.reply = (perform env st.event.op st.pre).1)
    (hguar : (oneAtATime py).guar q st.event.op) : Answered st.event := by
  obtain ⟨pre, op, r⟩ := st
  cases op with
  | redisExists key =>
      have hr : r = .ok (pre.2.redis.exist (env.clock pre.1.ops) key) := by
        rw [show r = _ from hreply]
        simp [perform, hw.exists_ok]
      rw [hr]
      trivial
  | redisSet key v ex =>
      have hpos : ¬ ex ≤ 0 := not_le.mpr hguar.2
      have hr : r = .ok () := by
        rw [show r = _ from hreply]
        simp [perform, hw.set_ok, hpos]
      rw [hr]
      trivial
  | _ => trivial

/-- A check on a working Redis is answered by what is visible. -/
theorem reply_exists {py : PyLib} {ι : Type} [DecidableEq ι] {d : Deployment ι} {cl : Cluster}
    {schedule : List ι} {i : ι} {st : Step World Op.Ret Exn} {key : String}
    (hw : ∀ i, (d.env i).RedisWorks) (hmem : (i, st) ∈ d.trace py cl schedule)
    (hop : st.event.op = .redisExists key) :
    st.event = ⟨.redisExists key, .ok (visible (d.env i) st key)⟩ := by
  obtain ⟨-, hreply⟩ := System.of_mem_trace _ (fun i => Prog.asks_any _) hmem
  obtain ⟨pre, op, r⟩ := st
  obtain rfl : op = .redisExists key := hop
  have hr : r = _ := hreply
  rw [hr]
  simp [perform, (hw i).exists_ok, visible]

/-- For any number of instances on one working Redis and any interleaving of their operations: as
long as no marker expires, and an instance that finds no marker of an id finds no other instance
between its own check of the id and its write of the marker, at most one handler call returns on the
id. -/
theorem at_most_one_success (py : PyLib) {ι : Type} [DecidableEq ι] (d : Deployment ι)
    (cl : Cluster) (hredis : ∀ i, (d.consumer i).redis = true)
    (httl : ∀ i, 0 < (d.consumer i).dedupTtl) (hw : ∀ i, (d.env i).RedisWorks)
    (schedule : List ι)
    -- no marker written during the run has expired when its id is checked
    (hlast : ∀ before i st after, d.trace py cl schedule = before ++ (i, st) :: after →
      ∀ key, st.event.op = .redisExists key → MarkerWritten key before →
        visible (d.env i) st key = true)
    -- no other instance is at work on an id that is checked and found new
    (hclear : ∀ before i st after, d.trace py cl schedule = before ++ (i, st) :: after →
      ∀ key, st.event.op = .redisExists key → visible (d.env i) st key = false →
        ∀ j, j ≠ i → ¬ (phaseOf py before j).holds key)
    (id : Json) :
    successes py (FraudKafkaConsumer.dedupKey py id) (d.trace py cl schedule) ≤ 1 := by
  have hinit : ∀ key, KeyInv key (phaseOf py ([] : Moves ι)) (MarkerWritten key ([] : Moves ι))
      (successes py key ([] : Moves ι)) := by
    intro key
    have hidle : ∀ i, ¬ (phaseOf py ([] : Moves ι) i).holds key := fun i => not_holds_idle
    refine ⟨fun i _ hi => absurd hi (hidle i), fun i hi => absurd hi (hidle i), fun _ _ => rfl,
      fun _ _ => rfl, Nat.zero_le 1⟩
  have hstep : ∀ qs before i (st : Step World Op.Ret Exn),
      (qs = phaseOf py before ∧ ∀ key, KeyInv key (phaseOf py before) (MarkerWritten key before)
        (successes py key before)) →
      (∀ key, st.event.op = .redisExists key →
        (MarkerWritten key before → visible (d.env i) st key = true) ∧
        (visible (d.env i) st key = false → ∀ j, j ≠ i → ¬ (phaseOf py before j).holds key)) →
      st.event.reply = (perform (d.env i) st.event.op st.pre).1 →
      (oneAtATime py).guar (qs i) st.event.op →
      ∃ q', (oneAtATime py).rely (qs i) st.event q' ∧
        (Function.update qs i q' = phaseOf py (before ++ [(i, st)]) ∧
        ∀ key, KeyInv key (phaseOf py (before ++ [(i, st)]))
          (MarkerWritten key (before ++ [(i, st)])) (successes py key (before ++ [(i, st)]))) := by
    rintro qs before i st ⟨rfl, hinv⟩ hok hreply hguar
    have hanswered := answered_of_guar (hw i) hreply hguar
    refine ⟨_, ⟨rfl, hanswered⟩, (phaseOf_append py before i st).symm, ?_⟩
    refine keyInv_step hinv hguar ?_
    intro key hev
    have hop : st.event.op = .redisExists key := by rw [hev]
    obtain ⟨hwritten, hothers⟩ := hok key hop
    have hinvisible : visible (d.env i) st key = false := by
      rw [hev] at hreply
      exact (perform_exists hreply.symm).symm
    -- a marker that is written is visible, so the check would have found it
    refine ⟨fun hmark => ?_, hothers hinvisible⟩
    rw [hwritten hmark] at hinvisible
    cases hinvisible
  obtain ⟨qs, -, hinv⟩ := System.exec_invariant (C := oneAtATime py)
    (fun qs moves => qs = phaseOf py moves ∧
      ∀ key, KeyInv key (phaseOf py moves) (MarkerWritten key moves) (successes py key moves))
    (fun before x => ∀ key, x.2.event.op = .redisExists key →
      (MarkerWritten key before → visible (d.env x.1) x.2 key = true) ∧
      (visible (d.env x.1) x.2 key = false → ∀ j, j ≠ x.1 → ¬ (phaseOf py before j).holds key))
    hstep ⟨rfl, hinit⟩ schedule (d.system py cl)
    (fun i => wp_consume (hredis i) (httl i) (d.messages i))
    (fun before x after heq key hop =>
      ⟨hlast before x.1 x.2 after heq key hop, hclear before x.1 x.2 after heq key hop⟩)
  exact (hinv _).once

/-! ### Two instances, one event -/

/-- The consumer of `sampleMessage`, twice. -/
def twoInstances : Deployment Bool where
  consumer := fun _ => sampleConsumer
  messages := fun _ => [sampleMessage]
  env := fun _ => Env.calm

/-- Who moves in `twoInstances` under a schedule, and what happens. -/
def twoInstancesEvents (schedule : List Bool) : List (Bool × Event) :=
  (twoInstances.trace CompactJson.compactJson World.fresh.2 schedule).map fun x => (x.1, x.2.event)

/-- No marker expires where every check after a write of its marker finds it. -/
theorem twoInstances_last {schedule : List Bool}
    (hfound : (twoInstancesEvents schedule).Pairwise fun x x' =>
      ∀ key, sets key x.2 = true → x'.2 ≠ ⟨.redisExists key, .ok false⟩) :
    ∀ before i st after,
      twoInstances.trace CompactJson.compactJson World.fresh.2 schedule
        = before ++ (i, st) :: after →
      ∀ key, st.event.op = .redisExists key → MarkerWritten key before →
        visible (twoInstances.env i) st key = true := by
  rintro before i st after heq key hop ⟨x, hx, hset⟩
  unfold twoInstancesEvents at hfound
  rw [heq, List.map_append, List.pairwise_append] at hfound
  have hne : st.event ≠ ⟨.redisExists key, .ok false⟩ :=
    hfound.2.2 _ (List.mem_map_of_mem hx) _ List.mem_cons_self key hset
  have hmem : (i, st) ∈ twoInstances.trace CompactJson.compactJson World.fresh.2 schedule := by
    rw [heq]
    exact List.mem_append_right _ List.mem_cons_self
  have hreply := reply_exists (fun _ => Env.calm_healthy.redisWorks) hmem hop
  cases hvisible : visible (twoInstances.env i) st key with
  | true => rfl
  | false => exact absurd (hreply.trans (by rw [hvisible])) hne

theorem twoInstances_system : twoInstances.system CompactJson.compactJson World.fresh.2
    = ⟨fun _ => (do
          await (.deliver sampleMessage)
          if ← await .running then
            sampleConsumer.accepted CompactJson.compactJson sampleMessage sampleEvent
            pure () : Async Unit).tryExcept Exn.isCancelled fun _ => pure (),
        fun _ => ⟨0, 0, 0⟩, World.fresh.2⟩ := by
  rw [← consume_sample (c := sampleConsumer) rfl rfl]
  rfl

/-- One instance handles the event and marks it before the other one checks. -/
theorem twoInstancesEvents_ordered :
    twoInstancesEvents [true, true, true, true, true, false, false, false] =
    [(true, ⟨.deliver sampleMessage, .ok ()⟩), (true, ⟨.running, .ok true⟩),
      (true, ⟨.redisExists sampleKey, .ok false⟩), (true, ⟨.handlerFn sampleEvent, .ok ()⟩),
      (true, ⟨.redisSet sampleKey "1" 86400, .ok ()⟩),
      (false, ⟨.deliver sampleMessage, .ok ()⟩), (false, ⟨.running, .ok true⟩),
      (false, ⟨.redisExists sampleKey, .ok true⟩)] := by
  unfold twoInstancesEvents Deployment.trace
  rw [twoInstances_system]
  with_unfolding_all rfl

theorem at_most_one_success_ordered :
    successes CompactJson.compactJson sampleKey (twoInstances.trace CompactJson.compactJson
      World.fresh.2 [true, true, true, true, true, false, false, false]) ≤ 1 := by
  refine at_most_one_success CompactJson.compactJson twoInstances World.fresh.2 (fun _ => rfl)
    (fun _ => (by decide : 0 < sampleConsumer.dedupTtl)) (fun _ => Env.calm_healthy.redisWorks)
    [true, true, true, true, true, false, false, false]
    (twoInstances_last ?_) ?_ sampleEvent.eventId
  · rw [twoInstancesEvents_ordered]
    simp [sets]
  · -- the only check that finds nothing is the first one, before which the other has not moved
    intro before i st after heq key hop hnew j hj hholds
    have hfirst : (twoInstancesEvents [true, true, true, true, true, false, false, false]).Pairwise
        fun x x' => x'.2 = ⟨.redisExists key, .ok false⟩ → x.1 = x'.1 := by
      rw [twoInstancesEvents_ordered]
      simp
    have hmem : (i, st) ∈ twoInstances.trace CompactJson.compactJson World.fresh.2
        [true, true, true, true, true, false, false, false] := by
      rw [heq]
      exact List.mem_append_right _ List.mem_cons_self
    have hevent := reply_exists (fun _ => Env.calm_healthy.redisWorks) hmem hop
    rw [hnew] at hevent
    unfold twoInstancesEvents at hfirst
    rw [heq, List.map_append, List.pairwise_append] at hfirst
    have hsame : ∀ x ∈ before, x.1 = i := fun x hx =>
      hfirst.2.2 _ (List.mem_map_of_mem hx) _ List.mem_cons_self hevent
    have hevents : System.eventsOf j before = [] := by
      unfold System.eventsOf
      rw [List.map_eq_nil_iff, List.filter_eq_nil_iff]
      intro x hx
      rw [hsame x hx, decide_eq_true_eq]
      exact fun hij => hj hij.symm
    unfold phaseOf at hholds
    rw [hevents] at hholds
    exact not_holds_idle hholds

/-- Both instances check the event before either has recorded it, and both handle it. -/
theorem twoInstancesEvents_race :
    twoInstancesEvents [true, true, true, false, false, false, true, false] =
    [(true, ⟨.deliver sampleMessage, .ok ()⟩), (true, ⟨.running, .ok true⟩),
      (true, ⟨.redisExists sampleKey, .ok false⟩),
      (false, ⟨.deliver sampleMessage, .ok ()⟩), (false, ⟨.running, .ok true⟩),
      (false, ⟨.redisExists sampleKey, .ok false⟩),
      (true, ⟨.handlerFn sampleEvent, .ok ()⟩), (false, ⟨.handlerFn sampleEvent, .ok ()⟩)] := by
  unfold twoInstancesEvents Deployment.trace
  rw [twoInstances_system]
  rfl

/-- The handler returns on one event in both instances, and no marker has expired. -/
theorem both_instances_succeed :
    ¬ ∀ schedule : List Bool,
      (∀ before i st after, twoInstances.trace CompactJson.compactJson World.fresh.2 schedule
          = before ++ (i, st) :: after →
        ∀ key, st.event.op = .redisExists key → MarkerWritten key before →
          visible (twoInstances.env i) st key = true) →
      successes CompactJson.compactJson sampleKey (twoInstances.trace CompactJson.compactJson
        World.fresh.2 schedule) ≤ 1 := by
  intro hclaim
  have hone := hclaim [true, true, true, false, false, false, true, false] (twoInstances_last (by
    rw [twoInstancesEvents_race]
    simp [sets]))
  have hcount : successes CompactJson.compactJson sampleKey (twoInstances.trace
      CompactJson.compactJson World.fresh.2 [true, true, true, false, false, false, true, false])
      = (twoInstancesEvents [true, true, true, false, false, false, true, false]).countP fun x =>
        succeeds CompactJson.compactJson sampleKey x.2 := by
    rw [twoInstancesEvents, List.countP_map]
    rfl
  have hsucceeds : succeeds CompactJson.compactJson sampleKey ⟨.handlerFn sampleEvent, .ok ()⟩
      = true := by
    simp [succeeds, sampleKey]
  rw [hcount, twoInstancesEvents_race] at hone
  simp only [List.countP_cons, List.countP_nil, hsucceeds, if_true] at hone
  omega

end FraudDetection.Kafka
