import FraudDetection.Graph.AnalyzeGraph
import FraudDetection.Orchestrator.Consume
import FraudDetection.Rules.Catalogue
import FraudDetection.Rules.Footprint

/-!
# The range of the rule score

The aggregator refuses scores outside of the unit interval. The rule engine caps its score at one,
and the table of rules admits contributions that are negative or `NaN`, so the score can fall below
zero or be `nan`.
-/

namespace FraudDetection.Orchestrator

open Python Rules Floats FraudDetection.Graph

section ScoreRange

/-- Scores of which all but the rule score are known to be in range. -/
theorem valid_iff_ruleScore {ruleScore ml graph : Double} (hml : ml.Unit) (hgraph : graph.Unit) :
    (⟨ruleScore, ml, graph, 0⟩ : Scores).Valid ↔ ruleScore.Unit := by
  rw [Scores.valid_iff]
  exact and_iff_left ⟨hml, hgraph, Double.unit_zero⟩

/-- Scores are aggregated exactly when they are valid. -/
theorem aggregate_ok_iff {py : PyLib} {s : Scores} :
    (∃ score, aggregate binary64 py s weights = .ok score) ↔ s.Valid := by
  constructor
  · rintro ⟨score, hscore⟩
    by_contra hs
    obtain ⟨x, hx, -⟩ := @aggregate_error binary64 py weights s hs
    rw [hx] at hscore
    cases hscore
  · intro hs
    exact ⟨_, aggregate_final hs⟩

/-- The rule score is in range, and is accepted with the scores of the other engines, exactly when
the contributions of the rules that match are numbers whose float sum is not negative, however Redis
answers them. -/
theorem ruleScore_accepted_iff {σ : Type} (py : PyLib)
    (f : (op : Rules.Op) → σ → Except Exn (Rules.Ret op) × σ)
    (hf : ∀ op s x, (f op s).1 = .error x → x.isException = true) (table : List RuleRow)
    (ctx : TransactionContext) (s : σ) (neo4j : Neo4jClient) (request : GraphAnalysisRequest)
    (reply : Reply) (ml : Double) (hgraph : analyzeGraph neo4j request = .ok reply) (hml : ml.Unit) :
    ∃ result, ((evaluateTransaction binary64 py (fetchActiveRules table) ctx).run f s).result
          = .ok result ∧
      (result.ruleScore.Unit ↔ 0 ≤ contributions binary64 py f ctx (fetchActiveRules table) s) ∧
      ((∃ score, aggregate binary64 py ⟨result.ruleScore, ml, reply.result.graphScore, 0⟩ weights
          = .ok score) ↔
        0 ≤ contributions binary64 py f ctx (fetchActiveRules table) s) := by
  obtain ⟨result, hresult, hscore⟩ :=
    @ruleScore_eq σ binary64 py f ctx hf (fetchActiveRules table) s
  have hrange : result.ruleScore.Unit ↔
      0 ≤ contributions binary64 py f ctx (fetchActiveRules table) s := by
    rw [hscore]
    exact Double.unit_min_one
  refine ⟨result, hresult, hrange, ?_⟩
  rw [aggregate_ok_iff, valid_iff_ruleScore hml (Double.unit_num.mpr (graphScore_unit hgraph)), hrange]

/-- A catalogue without negative contributions never makes a score that is refused. -/
theorem ruleScore_accepted_of_nonneg {σ : Type} {py : PyLib}
    {f : (op : Rules.Op) → σ → Except Exn (Rules.Ret op) × σ} {table : List RuleRow}
    {ctx : TransactionContext} {s : σ}
    (h : ∀ row ∈ table, 0 ≤ row.scoreContribution.value) :
    0 ≤ contributions binary64 py f ctx (fetchActiveRules table) s := by
  apply contributions_nonneg
  intro r hr
  obtain ⟨row, hrow, rfl⟩ := List.mem_map.mp hr
  exact h row (List.mem_of_mem_filter hrow)

/-! ### A discount -/

/-- A graph without suspicious neighbours. -/
def quietGraph : Neo4jClient where
  addTransactionToGraph := fun _ => .ok ()
  checkDeviceSharing := fun _ => .ok []
  checkIpCluster := fun _ => .ok []
  detectFraudRing := fun _ => .ok []

/-- A request of the orchestrator. -/
def quietRequest : GraphAnalysisRequest := ⟨"t-1", "c-1", "m-1", "", "", 12⟩

/-- A row that takes 0.2 off the score of small payments. -/
def smallAmountRow : RuleRow where
  id := "7"
  ruleName := "SMALL_AMOUNT_TXN"
  category := "amount"
  severity := "LOW"
  scoreContribution := .number (-2000) (by decide)
  conditions := .dict [("type", .str "condition"), ("field", .str "amount"), ("operator", .str "<"),
    ("value", .int 100)]
  isActive := some true

theorem ruleScore_accepted_iff_discount :
    ∃ result, ((evaluateTransaction binary64 compactRules.toPyLib (fetchActiveRules [smallAmountRow])
        (.payment "c-1" 12)).run (answer compactRules 0) fun _ => none).result = .ok result ∧
      (result.ruleScore.Unit ↔
        0 ≤ contributions binary64 compactRules.toPyLib (answer compactRules 0) (.payment "c-1" 12)
          (fetchActiveRules [smallAmountRow]) fun _ => none) ∧
      ((∃ score, aggregate binary64 compactRules.toPyLib
          ⟨result.ruleScore, .num (1 / 2), .num 0, 0⟩ weights = .ok score) ↔
        0 ≤ contributions binary64 compactRules.toPyLib (answer compactRules 0) (.payment "c-1" 12)
          (fetchActiveRules [smallAmountRow]) fun _ => none) :=
  ruleScore_accepted_iff compactRules.toPyLib (answer compactRules 0) answer_exception
    [smallAmountRow] (.payment "c-1" 12) (fun _ => none) quietGraph quietRequest
    ⟨none, ⟨0, [], [], 0, 0, 0, 2⟩⟩ (.num (1 / 2)) rfl (by decide +kernel)

/-- On a small payment the rule engine reports the score -0.2, and the aggregator raises. -/
theorem discount_refused :
    ∃ result, (Rules.evaluate binary64 compactRules (fetchActiveRules [smallAmountRow]) 0
        (.payment "c-1" 12) fun _ => none).result = .ok result ∧
      ¬ result.ruleScore.Unit ∧
      ∃ reply, analyzeGraph quietGraph quietRequest = .ok reply ∧
        ∃ x, aggregate binary64 compactRules.toPyLib
          ⟨result.ruleScore, .num (1 / 2), reply.result.graphScore, 0⟩ weights = .error x ∧
          x.cls = .other "ValueError" := by
  have hscore : (Rules.evaluate binary64 compactRules (fetchActiveRules [smallAmountRow]) 0
      (.payment "c-1" 12) fun _ => none).result.toOption.map
        (fun result => decide result.ruleScore.Unit) = some false := by
    decide +kernel
  obtain ⟨result, hresult, -⟩ := @ruleScore_eq RedisStore binary64 compactRules.toPyLib
    (answer compactRules 0) (.payment "c-1" 12) answer_exception (fetchActiveRules [smallAmountRow])
    fun _ => none
  rw [Rules.evaluate, hresult] at hscore
  have hrange : ¬ result.ruleScore.Unit := of_decide_eq_false (Option.some.inj hscore)
  refine ⟨result, hresult, hrange, ⟨none, ⟨0, [], [], 0, 0, 0, 2⟩⟩, rfl, ?_⟩
  apply aggregate_error
  rw [valid_iff_ruleScore (by decide +kernel) (by decide +kernel)]
  exact hrange

end ScoreRange

end FraudDetection.Orchestrator
