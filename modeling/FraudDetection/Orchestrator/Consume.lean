import FraudDetection.Async.Trace
import FraudDetection.Python.Numbers
import FraudDetection.Orchestrator.Scoring

/-!
# The consume loop of the fraud orchestrator

Each message is scored by three engines over gRPC, the scores are aggregated, and the decision is
published. A client wrapper turns every failure of its call into the score `0.0`. One `try` stands
around the whole loop, so what a message raises ends it.

The loop is a program of the operations it awaits: the next message, engine calls, the publish and
the Redis commands of the dashboard counters. `outcome` says what a message comes to, as a function
of the message and of the answers to it, and `leads_processMessage` ties the program to it.
`published_eq` is the same for the loop: a message that raises hides those after it.
-/

namespace FraudDetection.Orchestrator

open Async Python Floats

/-! ## Operations -/

/-- The engines the orchestrator calls. -/
inductive Engine where
  | ruleEngine
  | mlScoring
  | graphAnalysis
  deriving DecidableEq, Repr

/-- A request message: the engine it is for, and the fields its constructor gets. -/
structure Request where
  engine : Engine
  fields : List (String × Json)

/-- The awaited calls. -/
inductive Op where
  | getone
  | rpc (request : Request)
  | sendAndWait (value : Json)
  | incr (key : String)
  | incrbyfloat (key : String) (amount : ℚ)

/-- An engine answers with its score. -/
abbrev Ret : Op → Type
  | .rpc _ => Double
  | _ => Unit

/-- A coroutine of the orchestrator. -/
abbrev Coroutine := Prog Ret Exn

/-- The protobuf constructors: they check the types of their fields. -/
structure Protobuf where
  construct : Request → Except Exn Unit
  construct_exception : ∀ r x, construct r = .error x → x.isException = true

/-! ## The clients -/

/-- What `evaluate_rule_engine` sends. The customer's id goes into the card number. -/
def ruleRequest (payload : Json) : Except Exn Request := do
  let transactionId ← payload.get "transaction_id" (.str "")
  let amount ← payload.get "amount" (.float 0)
  let merchantId ← payload.get "merchant_id" (.str "")
  let cardNumber ← payload.get "customer_id" (.str "")
  return ⟨.ruleEngine, [("transaction_id", transactionId), ("amount", amount),
    ("merchant_id", merchantId), ("card_number", cardNumber)]⟩

/-- What `evaluate_ml_scoring` sends. -/
def mlRequest (payload : Json) : Except Exn Request := do
  let transactionId ← payload.get "transaction_id" (.str "")
  let amount ← payload.get "amount" (.float 0)
  return ⟨.mlScoring, [("transaction_id", transactionId), ("amount", amount)]⟩

/-- What `evaluate_graph_analysis` sends. -/
def graphRequest (payload : Json) : Except Exn Request := do
  let transactionId ← payload.get "transaction_id" (.str "")
  let cardNumber ← payload.get "customer_id" (.str "")
  let merchantId ← payload.get "merchant_id" (.str "")
  let deviceId ← payload.get "device_fingerprint" (.str "")
  let ipAddress ← payload.get "ip_address" (.str "")
  let amount ← payload.get "amount" (.float 0)
  return ⟨.graphAnalysis, [("transaction_id", transactionId), ("card_number", cardNumber),
    ("merchant_id", merchantId), ("device_id", deviceId), ("ip_address", ipAddress),
    ("amount", amount)]⟩

/-- What the client of an engine sends. -/
def requestFor : Engine → Json → Except Exn Request
  | .ruleEngine => ruleRequest
  | .mlScoring => mlRequest
  | .graphAnalysis => graphRequest

/-- `evaluate_rule_engine`, `evaluate_ml_scoring` and `evaluate_graph_analysis`. -/
def evaluate (pb : Protobuf) (engine : Engine) (payload : Json) : Coroutine Double :=
  Prog.tryExcept
    (do
      let request ← Prog.lift (requestFor engine payload)
      Prog.lift (pb.construct request)
      Prog.await (Op.rpc request))
    Exn.isException fun _ => pure 0

/-! ## The loop -/

/-- The weights of the loop. -/
def weights : ScoringWeights where
  wRule := literal (4 / 10) (by norm_num)
  wMl := literal (4 / 10) (by norm_num)
  wGraph := literal (2 / 10) fifth_unit
  wHistory := literal 0 (by norm_num)

/-- The final score for the scores of a transaction. -/
def Scores.final (s : Scores) : ℚ := Max.max 0 (Min.min 1 (rawScore binary64 s weights))

/-- The final score as it is published: the dashboard expects a percentage. -/
def Scores.percent (s : Scores) : ℚ := binary64.times s.final 100

/-- `evaluated_event` -/
def evaluatedEvent (payload : Json) (s : Scores) (finalScore : ℚ) (decision : FraudDecision) :
    Except Exn Json := do
  let transactionId ← payload.get "transaction_id" .null
  let customerId ← payload.get "customer_id" .null
  let merchantName ← payload.get "merchant_name" .null
  let amount ← payload.get "amount" .null
  let currency ← payload.get "currency" (.str "USD")
  let timestamp ← payload.get "timestamp" .null
  let type ← payload.get "transaction_type" (.str "CREDIT")
  return .dict [
    ("transaction_id", transactionId),
    ("customer_id", customerId),
    ("merchant_name", merchantName),
    ("amount", amount),
    ("currency", currency),
    ("timestamp", timestamp),
    ("rule_score", .float s.ruleScore.value),
    ("ml_score", .float s.mlScore.value),
    ("graph_score", .float s.graphScore.value),
    ("final_score", .float (binary64.times finalScore 100)),
    ("decision", .str decision.value),
    ("type", type)]

/-- A number of an event. -/
def numberAt (event : Json) (name : String) : ℚ :=
  match event with
  | .dict fs =>
      match fs.lookup name with
      | some (.int n) => n
      | some (.float q) => q
      | _ => 0
  | _ => 0

/-- The updates of the dashboard counters; a failure among them is logged. -/
def updateKpis (lib : NumberLib) (payload : Json) (decision : FraudDecision) : Coroutine Unit :=
  Prog.tryExcept
    (do
      Prog.await (Op.incr "metrics:total_tx")
      let amount ← Prog.lift (payload.get "amount" (.float 0) >>= lib.toFloat)
      Prog.await (Op.incrbyfloat "metrics:total_volume" amount)
      -- a declined transaction counts as neither
      if decision.value = "block" then
        Prog.await (Op.incr "metrics:blocked_tx")
        Prog.await (Op.incr "metrics:fraud_tx")
      else if decision.value = "review" then
        Prog.await (Op.incr "metrics:fraud_tx"))
    Exn.isException fun _ => pure ()

/-- `msg.value.get("payload", msg.value)` -/
def payloadOf (value : Json) : Except Exn Json := value.get "payload" value

/-- The body of the loop. The three tasks are awaited together; none of them raises an `Exception`,
so their order does not matter. -/
def processMessage (lib : NumberLib) (pb : Protobuf) (value : Json) : Coroutine Unit := do
  let payload ← Prog.lift (payloadOf value)
  if payload.truthy then
    -- the id is read for the log
    let _ ← Prog.lift (payload.get "transaction_id" .null)
    let ruleScore ← evaluate pb .ruleEngine payload
    let mlScore ← evaluate pb .mlScoring payload
    let graphScore ← evaluate pb .graphAnalysis payload
    let scores : Scores := ⟨ruleScore, mlScore, graphScore, 0⟩
    let finalScore ← Prog.lift (aggregate binary64 lib.toPyLib scores weights)
    let decision := makeDecision finalScore .default
    let event ← Prog.lift (evaluatedEvent payload scores finalScore decision)
    Prog.await (Op.sendAndWait event)
    updateKpis lib payload decision

/-- `async for msg in self.consumer`, over the messages that arrive. -/
def loop (lib : NumberLib) (pb : Protobuf) : List Json → Coroutine Unit
  | [] => pure ()
  | value :: values => do
      Prog.await Op.getone
      processMessage lib pb value
      loop lib pb values

/-- `consume`: the loop ends silently when cancelled, and with a log entry on an `Exception`. -/
def consume (lib : NumberLib) (pb : Protobuf) (values : List Json) : Coroutine Unit :=
  Prog.tryExcept (loop lib pb values) (fun x => x.isCancelled || x.isException) fun _ => pure ()

/-! ## The world -/

/-- The outside world while a message is handled: how the engines and Redis answer. A call that
fails raises an `Exception`. -/
structure World where
  engines : Request → Except Exn Double
  redis : Op → Except Exn Unit
  engines_exception : ∀ r x, engines r = .error x → x.isException = true
  redis_exception : ∀ op x, redis op = .error x → x.isException = true

/-- A message, with the answers that are given while it is handled. -/
structure Incoming where
  value : Json
  world : World

/-- The world of the message in progress, those of the messages to come, and the published
events. -/
structure Consumption where
  world : World
  pending : List World
  events : List Json

/-- Answer an operation. The producer works. -/
def Consumption.answer : (op : Op) → Consumption → Except Exn (Ret op) × Consumption
  | .getone, t => (.ok (), { t with world := t.pending.headD t.world, pending := t.pending.tail })
  | .rpc request, t => (t.world.engines request, t)
  | .sendAndWait value, t => (.ok (), { t with events := t.events ++ [value] })
  | .incr key, t => (t.world.redis (.incr key), t)
  | .incrbyfloat key amount, t => (t.world.redis (.incrbyfloat key amount), t)

/-- A world in which nothing fails. -/
def idleWorld : World where
  engines _ := .ok 0
  redis _ := .ok ()
  engines_exception := nofun
  redis_exception := nofun

/-- Messages that have not been consumed yet. -/
def consumption (ms : List Incoming) : Consumption := ⟨idleWorld, ms.map Incoming.world, []⟩

/-- The events published while the messages are consumed. -/
def published (lib : NumberLib) (pb : Protobuf) (ms : List Incoming) : List Json :=
  ((consume lib pb (ms.map Incoming.value)).run Consumption.answer (consumption ms)).final.events

/-! ## What a message comes to -/

section Outcome

variable (lib : NumberLib) (pb : Protobuf) (w : World)

/-- The call of an engine for a payload: the request is made, checked and sent. -/
def callEngine (engine : Engine) (payload : Json) : Except Exn Double := do
  let request ← requestFor engine payload
  pb.construct request
  w.engines request

/-- The score a client returns: that of its engine, and zero if the call fails. -/
def scoreOf (engine : Engine) (payload : Json) : Double :=
  match callEngine pb w engine payload with
  | .ok score => score
  | .error _ => 0

/-- The scores the loop aggregates for a payload. -/
def scoresOf (payload : Json) : Scores where
  ruleScore := scoreOf pb w .ruleEngine payload
  mlScore := scoreOf pb w .mlScoring payload
  graphScore := scoreOf pb w .graphAnalysis payload
  historicalScore := 0

/-- The event published for a payload. -/
def evaluation (payload : Json) : Except Exn Json := do
  let _ ← payload.get "transaction_id" .null
  let finalScore ← aggregate binary64 lib.toPyLib (scoresOf pb w payload) weights
  evaluatedEvent payload (scoresOf pb w payload) finalScore (makeDecision finalScore .default)

/-- What the body of the loop does with a message. -/
inductive Outcome where
  | skipped
  | published (event : Json)
  | raised (x : Exn)

/-- How the body of the loop ends. -/
def Outcome.result : Outcome → Except Exn Unit
  | raised x => .error x
  | _ => .ok ()

/-- The events of an outcome. -/
def Outcome.events : Outcome → List Json
  | published event => [event]
  | _ => []

/-- The outcome of a message. -/
def outcome (value : Json) : Outcome :=
  match payloadOf value with
  | .error x => .raised x
  | .ok payload =>
      if payload.truthy then
        match evaluation lib pb w payload with
        | .error x => .raised x
        | .ok event => .published event
      else .skipped

end Outcome

/-! ## The program and its outcome -/

section Runs

variable {lib : NumberLib} {pb : Protobuf} {w : World}

/-- The request for a dict can be made. -/
theorem requestFor_dict (engine : Engine) (fs : List (String × Json)) :
    ∃ request, requestFor engine (.dict fs) = .ok request ∧ request.engine = engine := by
  cases engine with
  | ruleEngine => exact ⟨_, rfl, rfl⟩
  | mlScoring => exact ⟨_, rfl, rfl⟩
  | graphAnalysis => exact ⟨_, rfl, rfl⟩

/-- The event of a dict can be built. -/
theorem evaluatedEvent_dict (fs : List (String × Json)) (scores : Scores) (finalScore : ℚ)
    (decision : FraudDecision) :
    ∃ event, evaluatedEvent (.dict fs) scores finalScore decision = .ok event :=
  ⟨_, rfl⟩

/-- States of an environment in which the engines of a world are called, and events are
published. -/
structure Serves {S T : Type} (w : World) (ans : (op : Op) → T → Except Exn (Ret op) × T)
    (put : S → T) (publish : Json → S → S) : Prop where
  rpc : ∀ request s, ans (.rpc request) (put s) = (w.engines request, put s)
  sendAndWait : ∀ value s, ans (.sendAndWait value) (put s) = (.ok (), put (publish value s))

/-- The client of an engine returns a score for every dict, whatever happens to its call. -/
theorem Serves.leads_evaluate {S T : Type} {ans : (op : Op) → T → Except Exn (Ret op) × T}
    {put : S → T} {publish : Json → S → S} (hserves : Serves w ans put publish) (engine : Engine)
    (fs : List (String × Json)) (s : S) :
    Prog.Leads ans (evaluate pb engine (.dict fs)) (put s) fun r t =>
      r = .ok (scoreOf pb w engine (.dict fs)) ∧ t = put s := by
  obtain ⟨request, hrequest, -⟩ := requestFor_dict engine fs
  unfold evaluate scoreOf callEngine
  rw [Prog.leads_tryExcept, Prog.leads_bind, Prog.leads_lift, hrequest]
  simp only [Prog.leads_bind, Prog.leads_lift]
  cases hconstruct : pb.construct request with
  | error x => simp [pb.construct_exception _ _ hconstruct, hconstruct, bind, Except.bind]
  | ok u =>
      simp only [Prog.leads_await, hserves.rpc]
      cases hreply : w.engines request with
      | error x =>
          simp [w.engines_exception _ _ hreply, hconstruct, hreply, bind, Except.bind]
      | ok score => simp [hconstruct, hreply, bind, Except.bind]

/-- A program that changes nothing and raises an `Exception` at most. -/
def Harmless {α : Type} (p : Coroutine α) : Prop :=
  ∀ t, Prog.Leads Consumption.answer p t fun r t' =>
    (∀ x, r = .error x → x.isException = true) ∧ t' = t

theorem Harmless.bind {α β : Type} {p : Coroutine α} {g : α → Coroutine β} (hp : Harmless p)
    (hg : ∀ a, Harmless (g a)) : Harmless (p >>= g) := by
  intro t
  rw [Prog.leads_bind]
  refine (hp t).mono ?_
  rintro r t' ⟨hr, rfl⟩
  cases r with
  | ok a => exact hg a t'
  | error x =>
      refine ⟨?_, rfl⟩
      rintro y ⟨⟩
      exact hr x rfl

theorem harmless_incr (key : String) : Harmless (Prog.await (Op.incr key)) := by
  intro t
  rw [Prog.leads_await]
  exact ⟨fun x hx => t.world.redis_exception _ x hx, rfl⟩

theorem harmless_incrbyfloat (key : String) (amount : ℚ) :
    Harmless (Prog.await (Op.incrbyfloat key amount)) := by
  intro t
  rw [Prog.leads_await]
  exact ⟨fun x hx => t.world.redis_exception _ x hx, rfl⟩

theorem isException_of_toFloat {v : Json} {x : Exn} (h : lib.toFloat v = .error x) :
    x.isException = true := by
  unfold NumberLib.toFloat at h
  split at h
  · cases h
  · dsimp only at h
    split at h
    · cases h
    · cases h
      rfl
  · cases h
  · split at h
    · cases h
    · cases h
      rfl
  · cases h
    rfl

/-- The updates of the counters always return, and publish nothing. -/
theorem leads_updateKpis (payload : Json) (decision : FraudDecision) (t : Consumption) :
    Prog.Leads Consumption.answer (updateKpis lib payload decision) t fun r t' =>
      r = .ok () ∧ t' = t := by
  have hamount : Harmless
      (Prog.lift (payload.get "amount" (.float 0) >>= lib.toFloat) : Coroutine ℚ) := by
    intro t
    rw [Prog.leads_lift]
    refine ⟨?_, rfl⟩
    intro x hx
    rcases bind_eq_error.mp hx with hget | ⟨v, -, hfloat⟩
    · exact Json.isException_of_get hget
    · exact isException_of_toFloat hfloat
  have hdone : Harmless (pure () : Coroutine Unit) := by
    intro t
    rw [Prog.leads_pure]
    exact ⟨nofun, rfl⟩
  unfold updateKpis
  rw [Prog.leads_tryExcept]
  refine Prog.Leads.mono (Harmless.bind (harmless_incr _) (fun _ => hamount.bind fun amount =>
    (harmless_incrbyfloat _ amount).bind fun _ => ?_) t) ?_
  · split
    · exact (harmless_incr _).bind fun _ => harmless_incr _
    · split
      · exact harmless_incr _
      · exact hdone
  · rintro r t' ⟨hr, rfl⟩
    cases r with
    | ok u => exact ⟨rfl, rfl⟩
    | error x => simp [hr x rfl]

/-- The body of the loop raises, skips the message, or publishes its event and then updates the
counters. -/
theorem Serves.leads_processMessage {S T : Type} {ans : (op : Op) → T → Except Exn (Ret op) × T}
    {put : S → T} {publish : Json → S → S} (hserves : Serves w ans put publish) (value : Json) (s : S)
    {P : Except Exn Unit → T → Prop}
    (hraised : ∀ x, outcome lib pb w value = .raised x → P (.error x) (put s))
    (hskipped : outcome lib pb w value = .skipped → P (.ok ()) (put s))
    (hpublished : ∀ fs finalScore event, payloadOf value = .ok (.dict fs) →
      aggregate binary64 lib.toPyLib (scoresOf pb w (.dict fs)) weights = .ok finalScore →
      evaluatedEvent (.dict fs) (scoresOf pb w (.dict fs)) finalScore
        (makeDecision finalScore .default) = .ok event →
      outcome lib pb w value = .published event →
      Prog.Leads ans (updateKpis lib (.dict fs) (makeDecision finalScore .default))
        (put (publish event s)) P) :
    Prog.Leads ans (processMessage lib pb value) (put s) P := by
  unfold processMessage
  cases hpayload : payloadOf value with
  | error x =>
      refine hraised x ?_
      rw [outcome, hpayload]
  | ok payload =>
      simp only [Prog.lift_ok, pure_bind]
      by_cases htruthy : payload.truthy = true
      · rw [if_pos htruthy]
        cases hid : payload.get "transaction_id" .null with
        | error x =>
            refine hraised x ?_
            rw [outcome, hpayload]
            simp only [if_pos htruthy]
            rw [evaluation, hid]
            rfl
        | ok id =>
            obtain ⟨fs, rfl⟩ := Json.dict_of_get hid
            have houtcome : outcome lib pb w value =
                match evaluation lib pb w (.dict fs) with
                | .error x => .raised x
                | .ok event => .published event := by
              rw [outcome, hpayload]
              simp only [if_pos htruthy]
            simp only [Prog.lift_ok, pure_bind]
            -- the three clients return, and leave the state as it was
            rw [Prog.leads_bind_of_ok ans (hserves.leads_evaluate .ruleEngine fs s),
              Prog.leads_bind_of_ok ans (hserves.leads_evaluate .mlScoring fs s),
              Prog.leads_bind_of_ok ans (hserves.leads_evaluate .graphAnalysis fs s)]
            show Prog.Leads ans (Prog.lift (aggregate binary64 lib.toPyLib (scoresOf pb w (.dict fs))
              weights) >>= _) _ _
            cases haggregate : aggregate binary64 lib.toPyLib (scoresOf pb w (.dict fs)) weights with
            | error x =>
                refine hraised x ?_
                rw [houtcome, evaluation, hid, haggregate]
                rfl
            | ok finalScore =>
                obtain ⟨event, hevent⟩ := evaluatedEvent_dict fs (scoresOf pb w (.dict fs))
                  finalScore (makeDecision finalScore .default)
                have hout : outcome lib pb w value = .published event := by
                  have heval : evaluation lib pb w (.dict fs) = .ok event := by
                    rw [evaluation, hid, haggregate]
                    exact hevent
                  rw [houtcome, heval]
                simp only [Prog.lift_ok, pure_bind]
                show Prog.Leads ans (Prog.lift (evaluatedEvent (.dict fs)
                  (scoresOf pb w (.dict fs)) finalScore (makeDecision finalScore .default))
                    >>= _) _ _
                rw [hevent, Prog.lift_ok, pure_bind, Prog.leads_bind, Prog.leads_await,
                  hserves.sendAndWait]
                exact hpublished fs finalScore event hpayload haggregate hevent hout
      · rw [if_neg htruthy]
        refine hskipped ?_
        rw [outcome, hpayload]
        simp only [if_neg htruthy]

/-- While a message is in progress, its world answers. -/
theorem serves_consumption (w : World) (pending : List World) :
    Serves w Consumption.answer (fun events => ⟨w, pending, events⟩)
      fun event events => events ++ [event] :=
  ⟨fun _ _ => rfl, fun _ _ => rfl⟩

variable (lib pb w) in
/-- The body of the loop does what the outcome of the message says. -/
theorem leads_processMessage (value : Json) (pending : List World) (events : List Json) :
    Prog.Leads Consumption.answer (processMessage lib pb value) ⟨w, pending, events⟩ fun r t =>
      r = (outcome lib pb w value).result ∧
        t = ⟨w, pending, events ++ (outcome lib pb w value).events⟩ := by
  apply (serves_consumption w pending).leads_processMessage
  · intro x hx
    rw [hx]
    exact ⟨rfl, congrArg (Consumption.mk w pending) (List.append_nil events).symm⟩
  · intro hx
    rw [hx]
    exact ⟨rfl, congrArg (Consumption.mk w pending) (List.append_nil events).symm⟩
  · intro fs finalScore event _ _ _ hx
    rw [hx]
    exact leads_updateKpis (.dict fs) _ _

variable (lib pb) in
/-- What the loop publishes: the events of the messages up to the first one that raises. -/
def outputs : List Incoming → List Json
  | [] => []
  | m :: ms =>
      match outcome lib pb m.world m.value with
      | .raised _ => []
      | o => o.events ++ outputs ms

theorem leads_loop (ms : List Incoming) (w : World) (events : List Json) :
    Prog.Leads Consumption.answer (loop lib pb (ms.map Incoming.value))
      ⟨w, ms.map Incoming.world, events⟩ fun _ t => t.events = events ++ outputs lib pb ms := by
  induction ms generalizing w events with
  | nil => exact (List.append_nil events).symm
  | cons m ms ih =>
      rw [List.map_cons, loop, Prog.leads_bind, Prog.leads_await, outputs]
      show Prog.Leads _ (processMessage lib pb m.value >>= _)
        (⟨m.world, ms.map Incoming.world, events⟩ : Consumption) _
      rw [Prog.leads_bind]
      refine (leads_processMessage lib pb m.world m.value _ events).mono ?_
      rintro r t ⟨rfl, rfl⟩
      cases outcome lib pb m.world m.value with
      | skipped =>
          simp only [Outcome.result, Outcome.events, List.append_nil, List.nil_append]
          exact ih m.world events
      | published event =>
          simp only [Outcome.result, Outcome.events, ← List.append_assoc]
          exact ih m.world (events ++ [event])
      | raised x =>
          simp only [Outcome.result, Outcome.events]

/-- The program publishes the outputs. -/
theorem published_eq (ms : List Incoming) : published lib pb ms = outputs lib pb ms := by
  have hloop := @leads_loop lib pb ms idleWorld []
  have hconsume : Prog.Leads Consumption.answer (consume lib pb (ms.map Incoming.value))
      (consumption ms) fun _ t => t.events = outputs lib pb ms := by
    unfold consume
    rw [Prog.leads_tryExcept]
    refine hloop.mono ?_
    intro r t h
    rw [List.nil_append] at h
    cases r with
    | ok u => exact h
    | error x =>
        simp only
        split
        · exact h
        · exact h
  exact hconsume

/-! ## Messages that raise -/

variable (pb w) in
/-- The messages that end the loop: those that are no dicts, those whose payload is neither empty
nor a dict, and those for which a client returns a score out of range. -/
inductive Fatal : Json → Prop
  | notDict {value : Json} : (∀ fs, value ≠ .dict fs) → Fatal value
  | payload {value payload : Json} : payloadOf value = .ok payload → payload.truthy = true →
      (∀ fs, payload ≠ .dict fs) → Fatal value
  | score {value payload : Json} (engine : Engine) : payloadOf value = .ok payload →
      payload.truthy = true →
      ¬ (scoreOf pb w engine payload).Unit → Fatal value

/-- The messages the loop skips: those with an empty payload. -/
def Skipped (value : Json) : Prop := ∃ payload, payloadOf value = .ok payload ∧ payload.truthy = false

theorem scoresOf_valid {payload : Json} : (scoresOf pb w payload).Valid ↔
    ∀ engine, (scoreOf pb w engine payload).Unit := by
  rw [Scores.valid_iff]
  constructor
  · intro h engine
    cases engine with
    | ruleEngine => exact h.1
    | mlScoring => exact h.2.1
    | graphAnalysis => exact h.2.2.1
  · intro h
    exact ⟨h .ruleEngine, h .mlScoring, h .graphAnalysis, Double.unit_zero⟩

theorem weights_total : |binary64.minus (weights.total binary64) 1| ≤ weightSumTolerance binary64 := by
  decide +kernel

/-- Valid scores are aggregated to the final score. -/
theorem aggregate_final {py : PyLib} {s : Scores} (h : s.Valid) :
    aggregate binary64 py s weights = .ok s.final := aggregate_ok h weights_total

/-- Higher scores have no lower final score. -/
theorem final_mono {s t : Scores} (h : s ≤ t) : s.final ≤ t.final :=
  max_le_max le_rfl (min_le_min le_rfl (rawScore_mono h))

/-- What is aggregated is the final score. -/
theorem aggregate_eq_final {py : PyLib} {s : Scores} {x : ℚ}
    (h : aggregate binary64 py s weights = .ok x) : x = s.final := by
  by_cases hs : s.Valid
  · exact Except.ok.inj (h.symm.trans (aggregate_final hs))
  · obtain ⟨e, he, -⟩ := @aggregate_error binary64 py weights s hs
    rw [he] at h
    cases h

/-- A dict with scores in range is published. -/
theorem evaluation_ok {fs : List (String × Json)} (h : (scoresOf pb w (.dict fs)).Valid) :
    evaluation lib pb w (.dict fs) = evaluatedEvent (.dict fs) (scoresOf pb w (.dict fs))
      (scoresOf pb w (.dict fs)).final (makeDecision (scoresOf pb w (.dict fs)).final .default) := by
  rw [evaluation, Json.get_dict, aggregate_final h]
  rfl

/-- A fatal message with a payload has one that is neither empty nor scored in range. -/
theorem Fatal.payload_cases {value payload : Json} (h : Fatal pb w value)
    (hpayload : payloadOf value = .ok payload) : payload.truthy = true ∧
      ((∀ fs, payload ≠ .dict fs) ∨ ¬ (scoresOf pb w payload).Valid) := by
  cases h with
  | notDict hno =>
      obtain ⟨fs, rfl⟩ := Json.dict_of_get hpayload
      exact absurd rfl (hno fs)
  | payload hp ht hno =>
      cases hpayload.symm.trans hp
      exact ⟨ht, Or.inl hno⟩
  | score engine hp ht hscore =>
      cases hpayload.symm.trans hp
      exact ⟨ht, Or.inr fun hvalid => hscore (scoresOf_valid.mp hvalid engine)⟩

/-- Every message is fatal, skipped, or published. -/
theorem outcome_cases (value : Json) :
    (Fatal pb w value ∧ ∃ x, outcome lib pb w value = .raised x) ∨
    (¬ Fatal pb w value ∧ Skipped value ∧ outcome lib pb w value = .skipped) ∨
    (¬ Fatal pb w value ∧ ¬ Skipped value ∧ ∃ event, outcome lib pb w value = .published event) := by
  unfold outcome
  cases hpayload : payloadOf value with
  | error x =>
      refine Or.inl ⟨Fatal.notDict ?_, x, rfl⟩
      rintro fs rfl
      cases hpayload
  | ok payload =>
      by_cases htruthy : payload.truthy = true
      · simp only [if_pos htruthy]
        have hnot : ¬ Skipped value := by
          rintro ⟨other, hother, hfalse⟩
          cases hpayload.symm.trans hother
          rw [htruthy] at hfalse
          cases hfalse
        cases hid : payload.get "transaction_id" .null with
        | error x =>
            refine Or.inl ⟨Fatal.payload hpayload htruthy ?_, x, ?_⟩
            · rintro fs rfl
              cases hid
            · rw [evaluation, hid]
              rfl
        | ok id =>
            obtain ⟨fs, rfl⟩ := Json.dict_of_get hid
            by_cases hvalid : (scoresOf pb w (.dict fs)).Valid
            · obtain ⟨event, hevent⟩ := evaluatedEvent_dict fs (scoresOf pb w (.dict fs))
                (scoresOf pb w (.dict fs)).final
                (makeDecision (scoresOf pb w (.dict fs)).final .default)
              refine Or.inr (Or.inr ⟨?_, hnot, event, ?_⟩)
              · intro hfatal
                rcases (hfatal.payload_cases hpayload).2 with hno | hbad
                · exact hno fs rfl
                · exact hbad hvalid
              · rw [evaluation_ok hvalid, hevent]
            · obtain ⟨x, hx, -⟩ := @aggregate_error binary64 lib.toPyLib weights _ hvalid
              have hengine : ∃ engine, ¬ (scoreOf pb w engine (.dict fs)).Unit := by
                rw [scoresOf_valid] at hvalid
                exact not_forall.mp hvalid
              obtain ⟨engine, hscore⟩ := hengine
              refine Or.inl ⟨Fatal.score engine hpayload htruthy hscore, x, ?_⟩
              rw [evaluation, Json.get_dict, hx]
              rfl
      · simp only [if_neg htruthy]
        refine Or.inr (Or.inl ⟨?_, ⟨payload, hpayload, by simpa using htruthy⟩, trivial⟩)
        intro hfatal
        exact htruthy (hfatal.payload_cases hpayload).1

end Runs

end FraudDetection.Orchestrator
