import FraudDetection.Async.Pool
import FraudDetection.Ingestion.CreateTransaction
import FraudDetection.MlScoring.ModelEngine
import FraudDetection.Orchestrator.Engines
import FraudDetection.Orchestrator.GraphEvidence
import FraudDetection.Orchestrator.ScoreRange
import FraudDetection.Rules.RuleCache

/-!
# From the request to the decision

A request becomes an event on the topic of transactions. The orchestrator asks the rule engine, the
model and the graph about its payload and publishes a decision. The rule engine counts in Redis and
the graph grows, so what an engine answers depends on the requests before.

The engines are those of the three services (`PlatformSetting.serve`). `sound_engines` says that
their scores are in range, so no message that was ingested ends the consume loop.
-/

namespace FraudDetection.Orchestrator

open Async Python Rules Ingestion Kafka MlScoring Floats
open FraudDetection.Graph

/-! ## The platform -/

/-- What the engines keep: the Redis of the velocity rules, the graph, and how many calls of each
there have been, with the one in progress. -/
structure Platform (σ : Type) where
  redis : σ
  graph : Database
  calls : Engine → ℕ

/-- A call of an engine begins. -/
def Platform.called {σ : Type} (t : Platform σ) (engine : Engine) : Platform σ :=
  { t with calls := Function.update t.calls engine (t.calls engine + 1) }

/-- What the platform runs on: the table of rules, the model, how Redis answers the rule engine, how
the driver of the graph fares in a call, how a call of an engine fares on the network, and how Redis
answers the updates of the counters. -/
structure PlatformSetting (σ : Type) where
  py : PyLib
  table : List RuleRow
  inherited : Inherited
  velocity : (op : Rules.Op) → σ → Except Exn (Rules.Ret op) × σ
  model : Option Forest
  driver : ℕ → Driver
  fate : Engine → ℕ → Delivery Exn
  counters : Op → (Engine → ℕ) → Except Exn Unit

/-- What the caller sees of a call that fails in the service. -/
def rpcError : Exn := ⟨.other "AioRpcError", "the call has failed"⟩

/-- The message that `PredictFraud` gets. The hour and the time since the last transaction are not
sent. -/
def receivedPrediction (request : Request) : PredictionRequest where
  transactionId := textField request.fields "transaction_id"
  amount := doubleField request.fields "amount"
  hourOfDay := 0
  timeSinceLastTransaction := 0

section Platform

variable {σ : Type}

/-- A call of `EvaluateRules`, `PredictFraud` or `AnalyzeGraph`, and what it leaves. -/
def PlatformSetting.serve (P : PlatformSetting σ) (request : Request) (t : Platform σ) :
    Except Exn Double × Platform σ :=
  match request.engine with
  | .ruleEngine =>
      let run := (evaluateTransaction binary64 P.py (fetchActiveRules P.table)
        (sentContext P.inherited request)).run P.velocity t.redis
      (match run.result with
        | .ok result => .ok result.ruleScore
        | .error _ => .error rpcError, { t with redis := run.final })
  | .mlScoring => (.ok (.num (predict P.model (receivedPrediction request)).mlScore), t)
  | .graphAnalysis =>
      let message := receivedMessage request
      let driver := P.driver (t.calls .graphAnalysis)
      (match analyzeGraph (t.graph.client driver message) message with
        | .ok ⟨none, result⟩ => .ok (.num result.graphScore)
        | _ => .error rpcError, { t with graph := t.graph.served driver message })

/-- The engines as the orchestrator sees them. -/
def PlatformSetting.engines (P : PlatformSetting σ) : Engines (Platform σ) where
  call request t :=
    let t' := t.called request.engine
    (P.fate request.engine (t'.calls request.engine)).outcome (P.serve request t') t'
  redis op t := P.counters op t.calls

/-- No rule takes a discount, and what fails raises an `Exception`. -/
structure PlatformSetting.Regular (P : PlatformSetting σ) : Prop where
  table : ∀ row ∈ P.table, 0 ≤ row.scoreContribution.value
  velocity : ∀ op s x, (P.velocity op s).1 = .error x → x.isException = true
  unanswered : ∀ engine n x, P.fate engine n = .unanswered x → x.isException = true
  lost : ∀ engine n x, P.fate engine n = .lost x → x.isException = true
  counters : ∀ op n x, P.counters op n = .error x → x.isException = true

theorem answers_ok {score : Double} (h : score.Unit) : Answers (.ok score) :=
  ⟨by rintro _ ⟨⟩; exact h, by rintro _ ⟨⟩⟩

theorem answers_error {x : Exn} (h : x.isException = true) : Answers (.error x) :=
  ⟨by rintro _ ⟨⟩, by rintro _ ⟨⟩; exact h⟩

theorem answers_rpcError : Answers (.error rpcError) := answers_error rfl

variable {P : PlatformSetting σ}

/-- Every service answers with a score in range. -/
theorem answers_serve (hP : P.Regular) (request : Request) (t : Platform σ) :
    Answers (P.serve request t).1 := by
  unfold PlatformSetting.serve
  split
  · obtain ⟨result, hresult, hscore⟩ := @ruleScore_eq σ binary64 P.py P.velocity
      (sentContext P.inherited request) hP.velocity (fetchActiveRules P.table) t.redis
    dsimp only
    rw [hresult]
    refine answers_ok ?_
    rw [hscore]
    exact Double.unit_min_one.mpr (ruleScore_accepted_of_nonneg hP.table)
  · exact answers_ok (Double.unit_num.mpr (mlScore_unit _ _))
  · dsimp only
    split
    · rename_i result hreply
      exact answers_ok (Double.unit_num.mpr (graphScore_unit hreply))
    · exact answers_rpcError

/-- The scores that reach the orchestrator are in range. -/
theorem sound_engines (hP : P.Regular) : P.engines.Sound where
  call := by
    intro request t
    unfold PlatformSetting.engines
    dsimp only
    cases hfate : P.fate request.engine ((t.called request.engine).calls request.engine) with
    | answered => exact answers_serve hP request _
    | unanswered x => exact answers_error (hP.unanswered _ _ _ hfate)
    | lost x => exact answers_error (hP.lost _ _ _ hfate)
  redis := by
    intro op t x
    exact hP.counters op t.calls x

end Platform

/-! ## Ingested transactions -/

/-- The event that the dashboard gets for a transaction. Its type is always the default. -/
def evaluatedTransaction (p : TransactionPayload) (scores : Scores) : Json :=
  .dict [
    ("transaction_id", .str p.transactionId),
    ("customer_id", .str p.customerId),
    ("merchant_name", .str p.merchantName),
    ("amount", .float p.amount),
    ("currency", .str p.currency),
    ("timestamp", .str p.timestamp.isoformat),
    ("rule_score", .float scores.ruleScore.value),
    ("ml_score", .float scores.mlScore.value),
    ("graph_score", .float scores.graphScore.value),
    ("final_score", .float scores.percent),
    ("decision", .str (makeDecision scores.final .default).value),
    ("type", .str "CREDIT")]

/-- The entries of a dict. -/
def entries : Json → List (String × Json)
  | .dict fs => fs
  | _ => []

theorem eventOf_modelDump (p : TransactionPayload) (scores : Scores) :
    eventOf (entries p.modelDump) scores = evaluatedTransaction p scores := rfl

/-- The values of the messages for the requests, as the consumer decodes them. -/
def messages (requests : List Submission) : List Json :=
  (Ingestion.serve requests).events.map EventEnvelope.toDict

theorem messages_carry (requests : List Submission) :
    List.Forall₂ Carries (messages requests)
      (requests.map fun r => entries r.payload.modelDump) := by
  unfold messages
  rw [(served requests).events, List.map_map, List.forall₂_map_left_iff, List.forall₂_map_right_iff,
    List.forall₂_same]
  intro r _
  exact ⟨rfl, List.cons_ne_nil _ _⟩

/-- Every request that was ingested is evaluated once and in its turn, whatever became of its row,
and whatever calls and counters fail: the event bears the data of the request, and the decision on
the scores that the services give its payload in the state the requests before it have left. -/
theorem pipeline_evaluates {σ : Type} (lib : NumberLib) (pb : Protobuf) (P : PlatformSetting σ)
    (hP : P.Regular) (requests : List Submission) (t : Platform σ) :
    let run := (consume lib pb (messages requests)).run P.engines.answer ⟨t, []⟩
    let scores := (P.engines.evaluations pb (requests.map fun r => r.payload.modelDump) t).1
    run.result = .ok () ∧ scores.length = requests.length ∧ (∀ s ∈ scores, s.Valid) ∧
      run.final.events = requests.zipWith (fun r s => evaluatedTransaction r.payload s) scores := by
  intro run scores
  have hpayloads : (requests.map fun r => entries r.payload.modelDump).map Json.dict
      = requests.map fun r => r.payload.modelDump := by
    rw [List.map_map]
    rfl
  have hloop := @leads_loop_evaluations _ _ lib pb (sound_engines hP) _ _ (messages_carry requests)
    ⟨t, []⟩
  rw [hpayloads] at hloop
  have hconsume : Prog.Leads P.engines.answer (consume lib pb (messages requests)) ⟨t, []⟩
      fun r t' => r = .ok () ∧
        t'.events = requests.zipWith (fun r s => evaluatedTransaction r.payload s) scores := by
    unfold consume
    rw [Prog.leads_tryExcept]
    refine hloop.mono ?_
    rintro r t' ⟨rfl, rfl⟩
    refine ⟨rfl, ?_⟩
    show [] ++ List.zipWith eventOf _ _ = _
    rw [List.nil_append, List.zipWith_map_left]
    rfl
  refine ⟨hconsume.1, ?_, forall_evaluations (scoresOf_valid_of_sound (sound_engines hP)) _ _, hconsume.2⟩
  rw [length_evaluations, List.length_map]

/-! ### A lost call -/

/-- One rule, no model, and a network that loses the first call of the model. -/
def lossyPlatform : PlatformSetting RedisStore where
  py := compactRules.toPyLib
  table := [highAmountRow]
  inherited := plain
  velocity := answer compactRules 0
  model := none
  driver _ := .working
  fate engine n := if engine = .mlScoring ∧ n = 1 then .lost rpcError else .answered
  counters _ _ := .error rpcError

theorem regular_lossyPlatform : lossyPlatform.Regular where
  table := by
    intro row hrow
    rw [List.mem_singleton.mp hrow]
    decide +kernel
  velocity := answer_exception
  unanswered := by
    intro engine n x h
    unfold lossyPlatform at h
    dsimp only at h
    split at h <;> cases h
  lost := by
    intro engine n x h
    unfold lossyPlatform at h
    dsimp only at h
    split at h
    · cases h
      rfl
    · cases h
  counters := by
    rintro op n x ⟨⟩
    rfl

theorem pipeline_evaluates_lossy :
    let requests := [retriedPayment "e-1" {}, retriedPayment "e-2" { execute := true }]
    let t : Platform RedisStore := ⟨fun _ => none, .empty, fun _ => 0⟩
    let run := (consume compactNumbers lenientProtobuf (messages requests)).run
      lossyPlatform.engines.answer ⟨t, []⟩
    let scores := (lossyPlatform.engines.evaluations lenientProtobuf
      (requests.map fun r => r.payload.modelDump) t).1
    run.result = .ok () ∧ scores.length = 2 ∧ (∀ s ∈ scores, s.Valid) ∧
      run.final.events = requests.zipWith (fun r s => evaluatedTransaction r.payload s) scores :=
  pipeline_evaluates compactNumbers lenientProtobuf lossyPlatform regular_lossyPlatform _ _

/-! ## Without a model -/

/-- The score of a model that has not been loaded. -/
theorem fallback_of_gives {σ : Type} {P : PlatformSetting σ} (hmodel : P.model = none) {score : Double}
    (h : P.engines.Gives .mlScoring score) : score ≤ .num (binary64.round (5 / 100)) := by
  rcases h with rfl | ⟨request, t, hengine, hcall⟩
  · have hfallback : (0 : ℚ) ≤ binary64.round (5 / 100) := Rounding.round_nonneg (by norm_num)
    exact Double.num_le_num.mpr hfallback
  · have hserve : ∀ t', (P.serve request t').1 = .ok (.num (binary64.round (5 / 100))) := by
      intro t'
      unfold PlatformSetting.serve
      rw [hengine, hmodel]
      rfl
    unfold PlatformSetting.engines at hcall
    dsimp only at hcall
    cases hfate : P.fate request.engine ((t.called request.engine).calls request.engine) with
    | answered =>
      rw [hfate] at hcall
      rw [← Except.ok.inj ((hserve _).symm.trans hcall)]
      exact Double.num_le_num.mpr le_rfl
    | unanswered x =>
      rw [hfate] at hcall
      cases hcall
    | lost x =>
      rw [hfate] at hcall
      cases hcall

/-- A score in the unit interval lies below each bound that it does not exceed. -/
theorem le_num_of_value {x : Double} (hx : x.Unit) {q : ℚ} (h : x.value ≤ q) : x ≤ .num q := by
  cases x with
  | nan => exact absurd hx Double.not_unit_nan
  | num p => exact Double.num_le_num.mpr h

/-- The decision for scores below others is no more severe than theirs. -/
theorem decision_le {s : Scores} (hvalid : s.Valid) (hhistory : s.historicalScore = 0)
    {rule ml graph : ℚ} (hrule : s.ruleScore.value ≤ rule) (hml : s.mlScore ≤ .num ml)
    (hgraph : s.graphScore.value ≤ graph) :
    makeDecision s.final .default ≤
      makeDecision (Scores.final ⟨.num rule, .num ml, .num graph, 0⟩) .default := by
  obtain ⟨hruleUnit, -, hgraphUnit, -⟩ := Scores.valid_iff.mp hvalid
  refine makeDecision_mono (final_mono ⟨?_, hml, ?_, ?_⟩) .default
  · exact le_num_of_value hruleUnit hrule
  · exact le_num_of_value hgraphUnit hgraph
  · rw [hhistory]
    exact Double.num_le_num.mpr le_rfl

/-- Without a trained model no transaction is ever blocked, and none is declined but on a rule score
of at least 0.95 and a graph score of at least 0.9, up to the rounding of the weighted sum. -/
theorem fallback_never_blocks {σ : Type} (lib : NumberLib) (pb : Protobuf) (P : PlatformSetting σ)
    (hmodel : P.model = none) (values : List Json) (t : Platform σ) :
    ∀ event ∈ ((consume lib pb values).run P.engines.answer ⟨t, []⟩).final.events,
      ∃ decision, event.getItem "decision" = .ok (.str (FraudDecision.value decision)) ∧
        decision ≠ .block ∧
        (decision = .decline → 95 / 100 - 1 / 10 ^ 15 ≤ numberAt event "rule_score" ∧
          9 / 10 - 1 / 10 ^ 15 ≤ numberAt event "graph_score") := by
  intro event hevent
  have hyields : ∃ fs scores, P.engines.Yields scores ∧ event = eventOf fs scores :=
    @leads_consume_yields _ P.engines lib pb values t event hevent
  obtain ⟨fs, s, ⟨hvalid, -, hml, -, hhistory⟩, rfl⟩ := hyields
  have hfallback := fallback_of_gives hmodel hml
  obtain ⟨hrule, -, hgraph, -⟩ := Scores.valid_iff.mp hvalid
  refine ⟨makeDecision s.final .default, by simp [eventOf, Json.getItem, List.lookup_cons], ?_, ?_⟩
  · intro hblock
    -- the highest scores that are possible
    have hle := decision_le hvalid hhistory hrule.value.2 hfallback hgraph.value.2
    rw [hblock] at hle
    exact absurd hle (by decide +kernel)
  · intro hdecline
    constructor
    · by_contra hlow
      have hle := decision_le hvalid hhistory (not_le.mp hlow).le hfallback hgraph.value.2
      rw [hdecline] at hle
      exact absurd hle (by decide +kernel)
    · by_contra hlow
      have hle := decision_le hvalid hhistory hrule.value.2 hfallback (not_le.mp hlow).le
      rw [hdecline] at hle
      exact absurd hle (by decide +kernel)

/-- A platform on which no call is lost. -/
def quietPlatform : PlatformSetting RedisStore := { lossyPlatform with fate := fun _ _ => .answered }

/-- A payment is scored 0.05 in place of the model. -/
theorem fallback_never_blocks_payment :
    let events := ((consume compactNumbers lenientProtobuf (messages [retriedPayment "e-1" {}])).run
      quietPlatform.engines.answer ⟨⟨fun _ => none, .empty, fun _ => 0⟩, []⟩).final.events
    events.map (numberAt · "ml_score") = [binary64.round (5 / 100)] ∧
      ∀ event ∈ events,
        ∃ decision, event.getItem "decision" = .ok (.str (FraudDecision.value decision)) ∧
          decision ≠ .block ∧
          (decision = .decline → 95 / 100 - 1 / 10 ^ 15 ≤ numberAt event "rule_score" ∧
            9 / 10 - 1 / 10 ^ 15 ≤ numberAt event "graph_score") :=
  ⟨by decide +kernel, fallback_never_blocks compactNumbers lenientProtobuf quietPlatform rfl _ _⟩

/-- The hour of a transaction and the time since the last one are not sent: no request of the
orchestrator is flagged for its hour, and each with a high score is flagged for its frequency. -/
theorem flags_of_request (model : Option Forest) (request : Request) :
    let result := predict model (receivedPrediction request)
    "TIME_ANOMALY" ∉ result.anomalyFlags ∧
      ("VELOCITY_SPIKE" ∈ result.anomalyFlags ↔ "HIGH_RISK_SCORE" ∈ result.anomalyFlags) := by
  cases model with
  | none => exact ⟨by simp [predict], by simp [predict]⟩
  | some forest =>
    refine ⟨?_, ?_⟩
    · rintro hflag
      obtain ⟨-, hhour, -⟩ := mem_flags_timeAnomaly.mp hflag
      exact absurd hhour (by simp [receivedPrediction])
    · show _ ∈ flags _ _ ↔ _ ∈ flags _ _
      rw [mem_flags_velocitySpike, mem_flags_highRisk, and_iff_left]
      norm_num [receivedPrediction]

end FraudDetection.Orchestrator
